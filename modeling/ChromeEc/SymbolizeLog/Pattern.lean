import ChromeEc.SymbolizeLog.Regex
import Mathlib.Data.List.Forall2

/-!
# `LOG_ADDR_REGEX`

The pattern that finds register values in a log line,

    (?P<reg>PC|LR|RA|SP|xPSR|R\d+|A\d+|T\d+)\s*[:=]\s*(?P<addr>(?:0x)?[0-9a-fA-F]+)

compiled with `re.IGNORECASE | re.VERBOSE`. What it matches is a register name, a
separator and an address, one after the other (`logAddrRegex_derives_iff`), and what
`finditer` finds of it in a line:

* `finditer_logAddrRegex_sound`: every match is a register name and its address, in the
  line, with a separator between them;
* `finditer_logAddrRegex_eq_nil_iff`: `finditer` finds nothing exactly in the lines
  that hold no register value (`HasRegisterValue`);
* `finditer_logAddrRegex_complete`: no register value is skipped, but one that starts
  inside an earlier match is not returned itself;
* `finditer_logAddrRegex_addr_whole`: every address is taken whole, as the greedy
  `[0-9a-fA-F]+` is the end of the pattern: no hexadecimal digit follows it in the line.
  This is the matcher's order at work, which `Re.Derives` does not see: `0x10` also
  derives a prefix `0x1` of the address.
-/

namespace ChromeEc.SymbolizeLog

variable (u : Ucd)

/-- The character `p` of a pattern under `re.IGNORECASE`: `c` has the lowercase of `p`,
    or is one of the exceptions `re` adds to it (`LITERAL_UNI_IGNORE`, `IN_UNI_IGNORE`). -/
def Ucd.ignoreCase (p c : Char) : Bool :=
  u.lower c ∈ u.lower p :: u.fixes (u.lower p)

/-- `x+` on a character class, which `_sre` runs as `xx*`. -/
def Re.plus (p : Char → Bool) : Re :=
  .seq (.char p) (.star p)

/-- `[0-9a-fA-F]` under `re.IGNORECASE`. -/
def Ucd.isHex (c : Char) : Bool :=
  "0123456789abcdefABCDEF".toList.any (u.ignoreCase · c)

/-- `PC|LR|RA|SP|xPSR|R\d+|A\d+|T\d+`, the alternatives in this order. -/
def regRe : Re :=
  let l c := Re.char (u.ignoreCase c)
  .alt (.seq (l 'P') (l 'C')) <| .alt (.seq (l 'L') (l 'R')) <| .alt (.seq (l 'R') (l 'A')) <|
  .alt (.seq (l 'S') (l 'P')) <| .alt (.seq (l 'x') (.seq (l 'P') (.seq (l 'S') (l 'R')))) <|
  .alt (.seq (l 'R') (.plus u.isdecimal)) <| .alt (.seq (l 'A') (.plus u.isdecimal)) <|
  .seq (l 'T') (.plus u.isdecimal)

/-- `\s*[:=]\s*`. -/
def sepRe : Re :=
  .seq (.star u.isspace) (.seq (.char fun c => c = ':' ∨ c = '=') (.star u.isspace))

/-- `(?:0x)?[0-9a-fA-F]+`: the `0` is not cased, and `re` compiles it as a plain literal. -/
def addrRe : Re :=
  .seq (.opt (.seq (.char (· = '0')) (.char (u.ignoreCase 'x')))) (.plus u.isHex)

/-- `LOG_ADDR_REGEX`. -/
def logAddrRegex : Re :=
  .seq (.group "reg" (regRe u)) (.seq (sepRe u) (.group "addr" (addrRe u)))

/-- `match.group(name)`: the last capture of the group. -/
def Caps.group (cs : Caps) (name : String) : List Char :=
  (cs.lookup name).getD []

/-! ### What the pattern matches -/

/-- `reg` spells `name`, each letter in a case that `re.IGNORECASE` takes for it. -/
def Ucd.Spells (name reg : List Char) : Prop :=
  List.Forall₂ (fun p c => u.ignoreCase p c) name reg

/-- `reg` is the letter `p`, in a case that `re.IGNORECASE` takes for it, and decimal
    digits. -/
def Ucd.Numbered (p : Char) (reg : List Char) : Prop :=
  ∃ c digits, reg = c :: digits ∧ u.ignoreCase p c ∧ digits ≠ [] ∧ ∀ d ∈ digits, u.isdecimal d

/-- A register name: `PC`, `LR`, `RA`, `SP` or `xPSR`, or `R`, `A` or `T` and decimal
    digits, each letter in either case. -/
def IsRegister (reg : List Char) : Prop :=
  (∃ name ∈ [['P', 'C'], ['L', 'R'], ['R', 'A'], ['S', 'P'], ['x', 'P', 'S', 'R']], u.Spells name reg) ∨
    ∃ p ∈ ['R', 'A', 'T'], u.Numbered p reg

/-- What separates a register from its value: a `:` or a `=`, with whitespace before and
    after it. -/
def IsSeparator (sep : List Char) : Prop :=
  ∃ before c after, sep = before ++ c :: after ∧ (c = ':' ∨ c = '=') ∧
    (∀ x ∈ before, u.isspace x) ∧ ∀ x ∈ after, u.isspace x

/-- An address: hexadecimal digits, after a `0x` (its `x` in either case) if any. -/
def IsAddress (addr : List Char) : Prop :=
  ∃ pre digits, addr = pre ++ digits ∧ (pre = [] ∨ ∃ x, pre = ['0', x] ∧ u.ignoreCase 'x' x) ∧
    digits ≠ [] ∧ ∀ d ∈ digits, u.isHex d

/-- `s` holds a register value: a register name, a separator and an address, one after
    the other. -/
def HasRegisterValue (s : List Char) : Prop :=
  ∃ pre reg sep addr post, s = pre ++ reg ++ sep ++ addr ++ post ∧
    IsRegister u reg ∧ IsSeparator u sep ∧ IsAddress u addr

section Derives

open Re

variable {u} {w : List Char} {cs cs' : Caps}

theorem derives_spell_one {p : Char} :
    (char (u.ignoreCase p)).Derives w cs cs' ↔ u.Spells [p] w ∧ cs' = cs := by
  simp only [derives_char_iff, Ucd.Spells, List.forall₂_cons_left_iff, List.forall₂_nil_left_iff]
  constructor
  · rintro ⟨c, rfl, hc, rfl⟩
    exact ⟨⟨c, [], hc, rfl, rfl⟩, rfl⟩
  · rintro ⟨⟨c, _, hc, rfl, rfl⟩, rfl⟩
    exact ⟨c, rfl, hc, rfl⟩

theorem derives_spell_cons {p : Char} {ps : List Char} {r : Re}
    (hr : ∀ {v}, r.Derives v cs cs' ↔ u.Spells ps v ∧ cs' = cs) :
    (seq (char (u.ignoreCase p)) r).Derives w cs cs' ↔ u.Spells (p :: ps) w ∧ cs' = cs := by
  simp only [derives_char_seq_iff, hr, Ucd.Spells, List.forall₂_cons_left_iff]
  constructor
  · rintro ⟨c, v, rfl, hc, hv, rfl⟩
    exact ⟨⟨c, v, hc, hv, rfl⟩, rfl⟩
  · rintro ⟨⟨c, v, hc, hv, rfl⟩, rfl⟩
    exact ⟨c, v, rfl, hc, hv, rfl⟩

theorem derives_numbered {p : Char} :
    (seq (char (u.ignoreCase p)) (plus u.isdecimal)).Derives w cs cs' ↔
      u.Numbered p w ∧ cs' = cs := by
  simp only [derives_char_seq_iff, plus, derives_star_iff, Ucd.Numbered]
  constructor
  · rintro ⟨c, _, rfl, hc, d, digits, rfl, hd, rfl, hds⟩
    exact ⟨⟨c, d :: digits, rfl, hc, List.cons_ne_nil _ _, by simpa [hd] using hds⟩, rfl⟩
  · rintro ⟨⟨c, _ | ⟨d, digits⟩, rfl, hc, hne, hds⟩, rfl⟩
    · exact absurd rfl hne
    · exact ⟨c, _, rfl, hc, d, digits, rfl, hds d (by simp), rfl, fun x hx => hds x (by simp [hx])⟩

theorem regRe_derives_iff : (regRe u).Derives w cs cs' ↔ IsRegister u w ∧ cs' = cs := by
  simp only [regRe, derives_alt_iff, derives_numbered, derives_spell_cons derives_spell_one,
    derives_spell_cons (derives_spell_cons (derives_spell_cons derives_spell_one))]
  simp [IsRegister, or_and_right, or_assoc, exists_or]

theorem sepRe_derives_iff : (sepRe u).Derives w cs cs' ↔ IsSeparator u w ∧ cs' = cs := by
  rw [sepRe, derives_seq_iff]
  simp only [derives_char_seq_iff, derives_star_iff, decide_eq_true_eq]
  constructor
  · rintro ⟨before, _, _, rfl, ⟨rfl, hb⟩, c, after, rfl, hc, rfl, ha⟩
    exact ⟨⟨before, c, after, rfl, hc, hb, ha⟩, rfl⟩
  · rintro ⟨⟨before, c, after, rfl, hc, hb, ha⟩, rfl⟩
    exact ⟨before, _, _, rfl, ⟨rfl, hb⟩, c, after, rfl, hc, rfl, ha⟩

theorem addrRe_derives_iff : (addrRe u).Derives w cs cs' ↔ IsAddress u w ∧ cs' = cs := by
  rw [addrRe, derives_seq_iff]
  simp only [plus, derives_char_seq_iff, derives_opt_iff, derives_char_iff, derives_star_iff,
    decide_eq_true_eq]
  constructor
  · rintro ⟨pre, _, _, rfl, hpre, d, digits, rfl, hd, rfl, hds⟩
    refine ⟨⟨pre, d :: digits, rfl, ?_, List.cons_ne_nil _ _, by simpa [hd] using hds⟩, ?_⟩
    · rcases hpre with ⟨_, _, rfl, rfl, x, rfl, hx, rfl⟩ | ⟨rfl, rfl⟩
      exacts [.inr ⟨x, rfl, hx⟩, .inl rfl]
    · rcases hpre with ⟨_, _, _, _, _, _, _, rfl⟩ | ⟨_, rfl⟩ <;> rfl
  · rintro ⟨⟨pre, _ | ⟨d, digits⟩, rfl, hpre, hne, hds⟩, rfl⟩
    · exact absurd rfl hne
    refine ⟨pre, d :: digits, _, rfl, ?_, d, digits, rfl, hds d (by simp), rfl,
      fun x hx => hds x (by simp [hx])⟩
    rcases hpre with rfl | ⟨x, rfl, hx⟩
    exacts [.inr ⟨rfl, rfl⟩, .inl ⟨'0', [x], rfl, rfl, x, rfl, hx, rfl⟩]

/-- `LOG_ADDR_REGEX` matches a register name, a separator and an address, one after the
    other, and captures the name as `reg` and the address as `addr`. -/
theorem logAddrRegex_derives_iff :
    (logAddrRegex u).Derives w cs cs' ↔ ∃ reg sep addr, w = reg ++ sep ++ addr ∧
      IsRegister u reg ∧ IsSeparator u sep ∧ IsAddress u addr ∧
        cs' = ("addr", addr) :: ("reg", reg) :: cs := by
  simp only [logAddrRegex, derives_seq_iff, derives_group_iff, regRe_derives_iff,
    sepRe_derives_iff, addrRe_derives_iff]
  constructor
  · rintro ⟨reg, _, _, rfl, ⟨_, ⟨hreg, rfl⟩, rfl⟩, sep, addr, _, rfl, ⟨hsep, rfl⟩, _, ⟨haddr, rfl⟩, rfl⟩
    exact ⟨reg, sep, addr, by simp, hreg, hsep, haddr, rfl⟩
  · rintro ⟨reg, sep, addr, rfl, hreg, hsep, haddr, rfl⟩
    exact ⟨reg, sep ++ addr, _, by simp, ⟨_, ⟨hreg, rfl⟩, rfl⟩, sep, addr, _, rfl, ⟨hsep, rfl⟩,
      _, ⟨haddr, rfl⟩, rfl⟩

theorem IsRegister.ne_nil {reg : List Char} (h : IsRegister u reg) : reg ≠ [] := by
  rintro rfl
  rcases h with ⟨name, hname, hspells⟩ | ⟨p, -, c, digits, hc, -⟩
  · simp only [List.mem_cons, List.mem_singleton, List.not_mem_nil, or_false] at hname
    rcases hname with rfl | rfl | rfl | rfl | rfl <;> cases hspells
  · cases hc

/-- `LOG_ADDR_REGEX` matches no empty string: a register name is never empty. -/
theorem logAddrRegex_not_derives_nil (cs : Caps) : ¬ (logAddrRegex u).Derives [] [] cs := by
  rw [logAddrRegex_derives_iff]
  rintro ⟨reg, sep, addr, h, hreg, -⟩
  exact hreg.ne_nil (List.append_eq_nil.1 (List.append_eq_nil.1 h.symm).1).1

end Derives

@[simp] theorem Caps.group_reg (addr reg : List Char) (cs : Caps) :
    Caps.group (("addr", addr) :: ("reg", reg) :: cs) "reg" = reg := rfl

@[simp] theorem Caps.group_addr (addr reg : List Char) (cs : Caps) :
    Caps.group (("addr", addr) :: ("reg", reg) :: cs) "addr" = addr := rfl

/-! ### The address is the end of the pattern -/

section Greedy

open Re

variable {u} {α : Type} {s : List Char} {cs : Caps} {k : List Char → Caps → Option α} {x : α}

/-- `x+`, under a continuation that accepts every rest, runs to the end of the class. -/
theorem plus_m_of_total {p : Char → Bool} (hk : ∀ s cs, (k s cs).isSome)
    (h : (plus p).m s cs k = some x) : ∃ s', (∀ c ∈ s'.head?, ¬p c) ∧ k s' cs = some x := by
  match s, h with
  | c :: t, h =>
    simp only [plus, m] at h
    split at h
    · rw [starM_of_total hk] at h
      refine ⟨t.dropWhile p, fun d hd => ?_, h⟩
      have := List.head?_dropWhile_not p t
      rw [hd] at this
      simpa using this
    · cases h

/-- Under a continuation that accepts every rest, `LOG_ADDR_REGEX` hands on a rest that
    does not start with a hexadecimal digit. -/
theorem logAddrRegex_m_of_total (hk : ∀ s cs, (k s cs).isSome)
    (h : (logAddrRegex u).m s cs k = some x) :
    ∃ s' cs', (∀ c ∈ s'.head?, ¬u.isHex c) ∧ k s' cs' = some x := by
  -- the register and the separator: what follows is the group of the address
  obtain ⟨_, _, h⟩ := m_seq_eq_some h
  obtain ⟨v, cs₂, h⟩ := m_seq_eq_some h
  -- the optional `0x`, then the digits, under the continuation that closes the group
  have h : (addrRe u).m v cs₂ (fun s' cs' => k s' (("addr", v.take (v.length - s'.length)) :: cs')) =
    some x := h
  obtain ⟨_, _, h⟩ := m_seq_eq_some h
  obtain ⟨s', hs', h⟩ := plus_m_of_total (fun _ _ => hk _ _) h
  exact ⟨s', _, hs', h⟩

/-- What `r.match` leaves after a match of `LOG_ADDR_REGEX` does not start with a
    hexadecimal digit. -/
theorem matchAt_logAddrRegex_rest {rest : List Char} (h : (logAddrRegex u).matchAt s = some (rest, cs)) :
    ∀ c ∈ rest.head?, ¬u.isHex c := by
  have h : (logAddrRegex u).m s [] (fun s' cs => some (s', cs)) = some (rest, cs) := h
  obtain ⟨s', cs', hs', h⟩ := logAddrRegex_m_of_total (fun _ _ => by rfl) h
  cases h
  exact hs'

end Greedy

/-! ### What `finditer` finds -/

section Finditer

variable {u} {s : List Char}

theorem finditer_logAddrRegex_finds : Re.Finds (logAddrRegex u) s ((logAddrRegex u).finditer s) :=
  Re.finditer_finds logAddrRegex_not_derives_nil s

/-- Every match is a register name and its address, in the line, with a separator
    between them. -/
theorem finditer_logAddrRegex_sound {cs : Caps} (hcs : cs ∈ (logAddrRegex u).finditer s) :
    ∃ pre sep post, s = pre ++ cs.group "reg" ++ sep ++ cs.group "addr" ++ post ∧
      IsRegister u (cs.group "reg") ∧ IsSeparator u sep ∧ IsAddress u (cs.group "addr") := by
  obtain ⟨pre, w, post, rfl, hw⟩ := finditer_logAddrRegex_finds.sound hcs
  obtain ⟨reg, sep, addr, rfl, hreg, hsep, haddr, rfl⟩ := logAddrRegex_derives_iff.1 hw
  exact ⟨pre, sep, post, by simp, by simpa using hreg, hsep, by simpa using haddr⟩

theorem finditer_logAddrRegex_sound_pc :
    [("addr", "0x10".data), ("reg", "PC".data)] ∈ (logAddrRegex Ucd.ascii).finditer "PC = 0x10".data ∧
      ∃ pre sep post, "PC = 0x10".data =
          pre ++ Caps.group [("addr", "0x10".data), ("reg", "PC".data)] "reg" ++ sep ++
            Caps.group [("addr", "0x10".data), ("reg", "PC".data)] "addr" ++ post ∧
        IsRegister Ucd.ascii (Caps.group [("addr", "0x10".data), ("reg", "PC".data)] "reg") ∧
        IsSeparator Ucd.ascii sep ∧
        IsAddress Ucd.ascii (Caps.group [("addr", "0x10".data), ("reg", "PC".data)] "addr") :=
  ⟨by decide, @finditer_logAddrRegex_sound Ucd.ascii _ _ (by decide)⟩

/-- `finditer` finds nothing exactly in the lines that hold no register value. -/
theorem finditer_logAddrRegex_eq_nil_iff :
    (logAddrRegex u).finditer s = [] ↔ ¬HasRegisterValue u s := by
  rw [finditer_logAddrRegex_finds.eq_nil_iff logAddrRegex_not_derives_nil]
  simp only [logAddrRegex_derives_iff]
  constructor
  · rintro h ⟨pre, reg, sep, addr, post, rfl, hreg, hsep, haddr⟩
    exact h pre (reg ++ sep ++ addr) post _ (by simp) ⟨reg, sep, addr, rfl, hreg, hsep, haddr, rfl⟩
  · rintro h pre w post cs rfl ⟨reg, sep, addr, rfl, hreg, hsep, haddr, -⟩
    exact h ⟨pre, reg, sep, addr, post, by simp, hreg, hsep, haddr⟩

/-- `finditer` takes every address whole: in the line, the character after it is not a
    hexadecimal digit, so that no address is cut short. -/
theorem finditer_logAddrRegex_addr_whole {cs : Caps} (hcs : cs ∈ (logAddrRegex u).finditer s) :
    ∃ pre sep post, s = pre ++ cs.group "reg" ++ sep ++ cs.group "addr" ++ post ∧
      IsSeparator u sep ∧ ∀ c ∈ post.head?, ¬u.isHex c := by
  obtain ⟨pre, suf, rest, rfl, hm⟩ := Re.mem_finditer logAddrRegex_not_derives_nil _ hcs
  obtain ⟨w, rfl, hw⟩ := Re.matchAt_sound hm
  obtain ⟨reg, sep, addr, rfl, -, hsep, -, rfl⟩ := logAddrRegex_derives_iff.1 hw
  exact ⟨pre, sep, rest, by simp, hsep, matchAt_logAddrRegex_rest hm⟩

theorem finditer_logAddrRegex_addr_whole_lr :
    [("addr", "0x8003a9f0".data), ("reg", "lr".data)] ∈
        (logAddrRegex Ucd.ascii).finditer "lr: 0x8003a9f0)".data ∧
      ∃ pre sep post, "lr: 0x8003a9f0)".data =
          pre ++ Caps.group [("addr", "0x8003a9f0".data), ("reg", "lr".data)] "reg" ++ sep ++
            Caps.group [("addr", "0x8003a9f0".data), ("reg", "lr".data)] "addr" ++ post ∧
        IsSeparator Ucd.ascii sep ∧ ∀ c ∈ post.head?, ¬Ucd.ascii.isHex c :=
  ⟨by decide, @finditer_logAddrRegex_addr_whole Ucd.ascii _ _ (by decide)⟩

/-- No register value of a line is skipped: each starts inside a match that `finditer`
    returns, found at or before it, after which the search goes on. So one that starts
    inside an earlier match is not returned itself: in `R1=A2=0x10`, `A2=0x10` starts inside
    the match `R1=A2`, whose address is `A2`. -/
theorem finditer_logAddrRegex_complete {pre reg sep addr post : List Char}
    (hs : s = pre ++ reg ++ sep ++ addr ++ post) (hreg : IsRegister u reg)
    (hsep : IsSeparator u sep) (haddr : IsAddress u addr) :
    ∃ ms₁ cs pre₁ sep₁ post₁,
      (logAddrRegex u).finditer s = ms₁ ++ cs :: (logAddrRegex u).finditer post₁ ∧
      s = pre₁ ++ cs.group "reg" ++ sep₁ ++ cs.group "addr" ++ post₁ ∧ pre₁.length ≤ pre.length ∧
      pre.length < (pre₁ ++ cs.group "reg" ++ sep₁ ++ cs.group "addr").length := by
  have hw : (logAddrRegex u).Derives (reg ++ sep ++ addr) [] [("addr", addr), ("reg", reg)] :=
    logAddrRegex_derives_iff.2 ⟨reg, sep, addr, rfl, hreg, hsep, haddr, rfl⟩
  obtain ⟨ms₁, pre₁, w₁, post₁, cs₁, hf, rfl, hm, hle, hlt⟩ :=
    Re.finditer_complete logAddrRegex_not_derives_nil hw s pre
      (show s = pre ++ (reg ++ sep ++ addr) ++ post by simp [hs])
  obtain ⟨w, hw₁, hw⟩ := Re.matchAt_sound hm
  obtain rfl := List.append_cancel_right hw₁
  obtain ⟨reg₁, sep₁, addr₁, rfl, -, -, -, rfl⟩ := logAddrRegex_derives_iff.1 hw
  exact ⟨ms₁, _, pre₁, sep₁, post₁, hf, by simp, hle, by simpa using hlt⟩

theorem finditer_logAddrRegex_complete_overlap :
    "R1=A2=0x10".data = "R1=".data ++ "A2".data ++ "=".data ++ "0x10".data ++ [] ∧
      IsRegister Ucd.ascii "A2".data ∧ IsSeparator Ucd.ascii "=".data ∧
      IsAddress Ucd.ascii "0x10".data ∧
      (logAddrRegex Ucd.ascii).finditer "R1=A2=0x10".data = [[("addr", "A2".data), ("reg", "R1".data)]] ∧
      ∃ ms₁ cs pre₁ sep₁ post₁,
        (logAddrRegex Ucd.ascii).finditer "R1=A2=0x10".data =
          ms₁ ++ cs :: (logAddrRegex Ucd.ascii).finditer post₁ ∧
        "R1=A2=0x10".data = pre₁ ++ cs.group "reg" ++ sep₁ ++ cs.group "addr" ++ post₁ ∧
        pre₁.length ≤ "R1=".data.length ∧
        "R1=".data.length < (pre₁ ++ cs.group "reg" ++ sep₁ ++ cs.group "addr").length := by
  have hreg : IsRegister Ucd.ascii "A2".data :=
    .inr ⟨'A', by simp, 'A', ['2'], rfl, by decide, by simp, by decide⟩
  have hsep : IsSeparator Ucd.ascii "=".data := ⟨[], '=', [], rfl, .inr rfl, by simp, by simp⟩
  have haddr : IsAddress Ucd.ascii "0x10".data :=
    ⟨['0', 'x'], ['1', '0'], rfl, .inr ⟨'x', rfl, by decide⟩, by simp, by decide⟩
  have hs : "R1=A2=0x10".data = "R1=".data ++ "A2".data ++ "=".data ++ "0x10".data ++ [] := by
    decide
  exact ⟨hs, hreg, hsep, haddr, by decide, finditer_logAddrRegex_complete hs hreg hsep haddr⟩

/-- Whether a line holds a register value is decided by `finditer` itself. -/
instance : DecidablePred (HasRegisterValue u) := fun _ =>
  decidable_of_iff _ finditer_logAddrRegex_eq_nil_iff.not_left

end Finditer

end ChromeEc.SymbolizeLog
