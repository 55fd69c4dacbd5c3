import Mathlib.Data.List.DropRight

/-!
# Python strings

The methods of Python's `str` that `util/symbolize_log.py` calls, on Lean's `String`
(a Python `str` is a sequence of code points, as a `String` is of `Char`s):

* `Str.strip`, `str.strip()`: drop leading and trailing whitespace;
* `Str.split`, `str.split("\n")`: the pieces between the newlines, empty ones included;
* `Str.upper`, `str.upper()`: the full uppercase mapping, character by character;
* `Str.repr`, `repr(str)`: the quoted form `str(list)` prints for each item.

What they read of the Unicode character database is a parameter, `Ucd`: every result
of the development holds for every database.
-/

namespace ChromeEc.SymbolizeLog

/-- The tables of the Unicode character database that the script reads, through the
    methods of `str` and through `re`. -/
structure Ucd where
  /-- `Py_UNICODE_ISSPACE`: `str.isspace`, `str.strip` and `\s`. -/
  isspace : Char → Bool
  /-- `Py_UNICODE_ISDECIMAL`: `\d`. -/
  isdecimal : Char → Bool
  /-- `Py_UNICODE_ISPRINTABLE`: the characters `repr` leaves as they are. -/
  isprintable : Char → Bool
  /-- The simple lowercase mapping, by which `re.IGNORECASE` compares characters. -/
  lower : Char → Char
  /-- The characters `re` also takes as equal to a lowercase one, ignoring case, as
      `ſ` for `s` (its table of exceptions to the simple mapping). -/
  fixes : Char → List Char
  /-- The full uppercase mapping of `str.upper` (`ß` is `SS`). -/
  upper : Char → List Char

/-- The database on ASCII text: what it says of any other character is not Python's. -/
def Ucd.ascii : Ucd where
  isspace c := c = ' ' ∨ ('\t' ≤ c ∧ c ≤ '\r') ∨ ('\x1c' ≤ c ∧ c ≤ '\x1f')
  isdecimal c := c.isDigit
  isprintable c := ' ' ≤ c ∧ c < '\x7f'
  lower := Char.toLower
  fixes _ := []
  upper c := [c.toUpper]

variable (u : Ucd)

namespace Str

/-- `s.strip()`. -/
def strip (s : String) : String :=
  ⟨(s.data.dropWhile u.isspace).rdropWhile u.isspace⟩

/-- `s.split("\n")`: never empty, as `"".split("\n") == [""]`. -/
def split (s : String) : List String :=
  (s.data.splitOn '\n').map String.mk

/-- `s.upper()`. -/
def upper (s : String) : String :=
  ⟨s.data.flatMap u.upper⟩

/-- The last `w` lowercase hexadecimal digits of `n`, as `repr` escapes characters. -/
def hex : Nat → Nat → List Char
  | 0, _ => []
  | w + 1, n => hex w (n / 16) ++ [Nat.digitChar (n % 16)]

/-- The escape of one character by `repr`, inside the quotes `q` (CPython's
    `unicode_repr`). -/
def escape (q c : Char) : List Char :=
  if c = q ∨ c = '\\' then ['\\', c]
  else if c = '\t' then ['\\', 't']
  else if c = '\n' then ['\\', 'n']
  else if c = '\r' then ['\\', 'r']
  else if c < ' ' ∨ c = '\x7f' then '\\' :: 'x' :: hex 2 c.toNat
  else if c < '\x7f' ∨ u.isprintable c then [c]
  else if c.toNat ≤ 0xff then '\\' :: 'x' :: hex 2 c.toNat
  else if c.toNat ≤ 0xffff then '\\' :: 'u' :: hex 4 c.toNat
  else '\\' :: 'U' :: hex 8 c.toNat

/-- `repr(s)`: in single quotes, unless `s` holds a single quote and no double one. -/
def repr (s : String) : String :=
  let q := if '\'' ∈ s.data ∧ '"' ∉ s.data then '"' else '\''
  ⟨q :: s.data.flatMap (escape u q) ++ [q]⟩

/-- `str(l)` for a list of strings: the `repr`s of its items, in brackets. -/
def reprList (l : List String) : String :=
  "[" ++ ", ".intercalate (l.map (repr u)) ++ "]"

end Str

example : Str.reprList Ucd.ascii ["0x801080d0: ?? ??:0"] = "['0x801080d0: ?? ??:0']" := by
  decide

example : Str.split "0x1\nmain at a.c:3\n" = ["0x1", "main at a.c:3", ""] := by decide

end ChromeEc.SymbolizeLog
