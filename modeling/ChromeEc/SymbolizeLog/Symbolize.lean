import ChromeEc.SymbolizeLog.Str

/-!
# `symbolize_address`

`symbolize_address(addr, elf_file, addr2line_tool)` runs `addr2line` on one address and
keeps what it returns in `ADDR2LINE_CACHE`, so that the next occurrence of the address
is answered from the cache. The system around it is a `World`: which paths exist and
what each command gives, both fixed for a run.

`symbolizeAddressUncached` is the same function with the lookup and the stores of the
cache deleted. On a miss the two agree, and the cached one stores what it returns,
unless the ELF file is missing (`symbolizeAddress_of_miss`); a call that returns either
hit or did that (`symbolizeAddress_eq_ok`), which is all the later proofs use of it.
-/

namespace ChromeEc.SymbolizeLog

/-- How `subprocess.run(cmd, capture_output=True, text=True, check=True,
    encoding="utf-8")` ends. -/
inductive Outcome
  /-- Exit status 0, with the standard output. -/
  | ok (stdout : String)
  /-- Another exit status: a `CalledProcessError`, with the standard error. -/
  | failed (stderr : String)
  /-- No such program: a `FileNotFoundError`, with its text. -/
  | notFound (e : String)
  /-- Another exception (a program that cannot be run, an output that is not UTF-8),
      with its text. -/
  | raised (e : String)

/-- The system the script runs on. -/
structure World where
  /-- `os.path.exists`. -/
  pathExists : String → Bool
  /-- What running a command gives. -/
  run : List String → Outcome

/-- What `symbolize_address` returns: a string, or the list of lines of the output of
    `addr2line` when it has fewer than two. -/
inductive Symbol
  | str (s : String)
  | lines (l : List String)
  deriving DecidableEq

/-- `str(symbol)`, as an f-string prints it. -/
def Symbol.toStr (u : Ucd) : Symbol → String
  | str s => s
  | lines l => Str.reprList u l

/-- The exceptions that end the script. -/
inductive Exc
  /-- `FileNotFoundError`, with its text. -/
  | fileNotFound (e : String)
  /-- `SystemExit`, raised by `sys.exit(code)`. -/
  | systemExit (code : Nat)
  /-- Any other exception, with its text. -/
  | raised (e : String)
  deriving DecidableEq

/-- `ADDR2LINE_CACHE`, as the dictionary it is read through: `addr in ADDR2LINE_CACHE`
    and `ADDR2LINE_CACHE[addr]`. -/
abbrev Cache := String → Option Symbol

/-- `ADDR2LINE_CACHE = {}`. -/
def Cache.empty : Cache := fun _ => none

/-- `ADDR2LINE_CACHE[addr] = symbol`. -/
def Cache.set (c : Cache) (addr : String) (symbol : Symbol) : Cache :=
  fun a => if a = addr then some symbol else c a

@[simp] theorem Cache.empty_apply (a : String) : Cache.empty a = none := rfl

@[simp] theorem Cache.set_apply (c : Cache) (addr a : String) (symbol : Symbol) :
    c.set addr symbol a = if a = addr then some symbol else c a := rfl

/-- The command `symbolize_address` runs. -/
def addr2lineCmd (addr elfFile addr2lineTool : String) : List String :=
  [addr2lineTool, "-e", elfFile, "-a", addr, "-f", "-C", "-i", "-p"]

variable (u : Ucd) (w : World)

/-- `symbolize_address(addr, elf_file, addr2line_tool)` with `ADDR2LINE_CACHE` as `cache`:
    the symbol and the cache after, or the exception it raises. On `FileNotFoundError`
    the source builds a message it never uses and raises the exception again. -/
def symbolizeAddress (addr elfFile addr2lineTool : String) (cache : Cache) :
    Except Exc (Symbol × Cache) :=
  match cache addr with
  | some symbol => .ok (symbol, cache)
  | none =>
    if !w.pathExists elfFile then .ok (.str ("ELF file not found: " ++ elfFile), cache)
    else
      match w.run (addr2lineCmd addr elfFile addr2lineTool) with
      | .ok stdout =>
        match Str.split (Str.strip u stdout) with
        | _ :: line :: _ =>
          let symbolized := Symbol.str (Str.strip u line)
          .ok (symbolized, cache.set addr symbolized)
        | outputLines => .ok (.lines outputLines, cache.set addr (.lines outputLines))
      | .failed stderr =>
        let errorMsg := Symbol.str ("addr2line failed for " ++ addr ++ ": " ++ Str.strip u stderr)
        .ok (errorMsg, cache.set addr errorMsg)
      | .notFound e => .error (.fileNotFound e)
      | .raised e => .error (.raised e)

/-- `symbolize_address` with the lookup and the stores of `ADDR2LINE_CACHE` deleted:
    every call runs `addr2line`. -/
def symbolizeAddressUncached (addr elfFile addr2lineTool : String) : Except Exc Symbol :=
  if !w.pathExists elfFile then .ok (.str ("ELF file not found: " ++ elfFile))
  else
    match w.run (addr2lineCmd addr elfFile addr2lineTool) with
    | .ok stdout =>
      match Str.split (Str.strip u stdout) with
      | _ :: line :: _ => .ok (.str (Str.strip u line))
      | outputLines => .ok (.lines outputLines)
    | .failed stderr => .ok (.str ("addr2line failed for " ++ addr ++ ": " ++ Str.strip u stderr))
    | .notFound e => .error (.fileNotFound e)
    | .raised e => .error (.raised e)

variable {u w} {addr elfFile addr2lineTool : String} {cache : Cache}

theorem symbolizeAddress_of_hit {symbol : Symbol} (h : cache addr = some symbol) :
    symbolizeAddress u w addr elfFile addr2lineTool cache = .ok (symbol, cache) := by
  simp [symbolizeAddress, h]

/-- On a miss, `symbolize_address` returns what the uncached one does, and stores it
    unless the ELF file is missing: in each of its branches. -/
theorem symbolizeAddress_of_miss (h : cache addr = none) :
    symbolizeAddress u w addr elfFile addr2lineTool cache =
      (symbolizeAddressUncached u w addr elfFile addr2lineTool).map fun symbol =>
        (symbol, if w.pathExists elfFile then cache.set addr symbol else cache) := by
  simp only [symbolizeAddress, symbolizeAddressUncached, h]
  cases hx : w.pathExists elfFile with
  | false => rfl
  | true =>
    cases w.run (addr2lineCmd addr elfFile addr2lineTool) with
    | ok stdout =>
      -- two lines or more, or fewer
      dsimp only
      generalize Str.split (Str.strip u stdout) = outputLines
      rcases outputLines with _ | ⟨_, _ | ⟨_, _⟩⟩ <;> rfl
    | failed | notFound | raised => rfl

/-- What a call of `symbolize_address` that returns can have done: on a hit, return the
    entry and leave the cache; on a miss, return what the uncached one returns, and store
    it unless the ELF file is missing. -/
theorem symbolizeAddress_eq_ok {symbol : Symbol} {cache' : Cache}
    (h : symbolizeAddress u w addr elfFile addr2lineTool cache = .ok (symbol, cache')) :
    (cache addr = some symbol ∧ cache' = cache) ∨
      (cache addr = none ∧ symbolizeAddressUncached u w addr elfFile addr2lineTool = .ok symbol ∧
        cache' = if w.pathExists elfFile then cache.set addr symbol else cache) := by
  cases hcache : cache addr with
  | some s =>
    rw [symbolizeAddress_of_hit hcache] at h
    cases h
    exact .inl ⟨rfl, rfl⟩
  | none =>
    rw [symbolizeAddress_of_miss hcache] at h
    cases hu : symbolizeAddressUncached u w addr elfFile addr2lineTool with
    | error e => simp [hu, Except.map] at h
    | ok y =>
      simp only [hu, Except.map, Except.ok.injEq, Prod.mk.injEq] at h
      obtain ⟨rfl, rfl⟩ := h
      exact .inr ⟨rfl, rfl, rfl⟩

end ChromeEc.SymbolizeLog
