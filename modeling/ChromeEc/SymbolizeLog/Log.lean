import ChromeEc.SymbolizeLog.Pattern
import ChromeEc.SymbolizeLog.Symbolize

/-!
# `parse_log_line` and `main`

`main` checks that the ELF file exists, then calls `parse_log_line` on every line of the
log; `parse_log_line` symbolizes every register value `LOG_ADDR_REGEX` finds in the line
and prints a block for the line, if it found any. A missing `addr2line` ends the script:
`parse_log_line` prints the error and calls `sys.exit(1)`.

Both are written over any `symbolize_address` with a state `σ` (a `Symbolizer`): the
script as shipped (`symbolizeLog`) has `ADDR2LINE_CACHE` for it, and the script without
the cache (`symbolizeLogUncached`) has no state at all.
-/

namespace ChromeEc.SymbolizeLog

/-- A `symbolize_address(addr, elf_file, addr2line_tool)` with a state `σ`: the symbol and
    the state after, or the exception it raises. -/
abbrev Symbolizer (σ : Type) := String → String → String → σ → Except Exc (Symbol × σ)

/-- A line the script prints, to the standard output or to the standard error. -/
inductive Print
  | out (s : String)
  | err (s : String)
  deriving DecidableEq

/-- The arguments `main` parses. -/
structure Args where
  /-- `--elf`, required. -/
  elf : String
  /-- `--addr2line`. -/
  addr2line : String := "addr2line"

variable {σ : Type} (u : Ucd) (symbolize : Symbolizer σ)

/-- The line `parse_log_line` prints for one match, `f"  {reg} ({addr}): {symbol}"`. -/
def infoLine (reg addr : String) (symbol : Symbol) : String :=
  "  " ++ reg ++ " (" ++ addr ++ "): " ++ symbol.toStr u

/-- The `for match in matches` loop of `parse_log_line`: what it prints, and
    `symbolized_info` and the state after, or the exception that ends it. On
    `FileNotFoundError` it prints the error and calls `sys.exit(1)`. -/
def symbolizeMatches (elfFile addr2lineTool : String) :
    List Caps → σ → List Print × Except Exc (List String × σ)
  | [], s => ([], .ok ([], s))
  | cs :: ms, s =>
    let reg := Str.upper u ⟨cs.group "reg"⟩
    let addr : String := ⟨cs.group "addr"⟩
    match symbolize addr elfFile addr2lineTool s with
    | .ok (symbol, s') =>
      let (printed, r) := symbolizeMatches elfFile addr2lineTool ms s'
      (printed, r.map fun (symbolizedInfo, s'') => (infoLine u reg addr symbol :: symbolizedInfo, s''))
    | .error (.fileNotFound e) => ([.err ("Error: " ++ e)], .error (.systemExit 1))
    | .error e => ([], .error e)

/-- The block `parse_log_line` prints for a line where it found addresses. -/
def block (line : String) (symbolizedInfo : List String) : List Print :=
  .out ("[Log Line]: " ++ Str.strip u line) :: symbolizedInfo.map .out ++
    [.out ⟨List.replicate 20 '-'⟩]

/-- `parse_log_line(line, elf_file, addr2line_tool)`: what it prints, and the state after,
    or the exception that ends it. -/
def parseLogLine (line elfFile addr2lineTool : String) (s : σ) : List Print × Except Exc σ :=
  let regMatches := (logAddrRegex u).finditer line.data
  match symbolizeMatches u symbolize elfFile addr2lineTool regMatches s with
  | (printed, .ok (symbolizedInfo, s')) =>
    (printed ++ if regMatches.isEmpty then [] else block u line symbolizedInfo, .ok s')
  | (printed, .error e) => (printed, .error e)

/-- `for line in args.log_file: parse_log_line(line, args.elf, args.addr2line)`. -/
def parseLines (elfFile addr2lineTool : String) : List String → σ → List Print × Except Exc σ
  | [], s => ([], .ok s)
  | line :: lines, s =>
    match parseLogLine u symbolize line elfFile addr2lineTool s with
    | (printed, .ok s') =>
      let (printed', r) := parseLines elfFile addr2lineTool lines s'
      (printed ++ printed', r)
    | (printed, .error e) => (printed, .error e)

/-- `main()`, after `parser.parse_args()`, on the lines of the log and from the state
    `s`: what it prints, and how it ends (`Except.ok ()` when it returns). -/
def main (w : World) (args : Args) (logFile : List String) (s : σ) :
    List Print × Except Exc Unit :=
  if !w.pathExists args.elf then
    ([.err ("Error: ELF file not found: " ++ args.elf)], .error (.systemExit 1))
  else
    let (printed, r) := parseLines u symbolize args.elf args.addr2line logFile s
    (printed, r.map fun _ => ())

/-- The script as shipped: `symbolize_address` with `ADDR2LINE_CACHE`, empty at the
    start. -/
def symbolizeLog (w : World) (args : Args) (logFile : List String) : List Print × Except Exc Unit :=
  main u (symbolizeAddress u w) w args logFile Cache.empty

/-- `symbolizeAddressUncached`, as a `Symbolizer` with no state. -/
def uncachedSymbolizer (w : World) : Symbolizer Unit :=
  fun addr elfFile addr2lineTool _ =>
    (symbolizeAddressUncached u w addr elfFile addr2lineTool).map fun symbol => (symbol, ())

/-- The script with the lookup and the stores of `ADDR2LINE_CACHE` deleted. -/
def symbolizeLogUncached (w : World) (args : Args) (logFile : List String) :
    List Print × Except Exc Unit :=
  main u (uncachedSymbolizer u w) w args logFile ()

/-- The addresses a line asks `symbolize_address` for, in order: those of the matches of
    `LOG_ADDR_REGEX` in it. -/
def lineAddrs (line : String) : List String :=
  ((logAddrRegex u).finditer line.data).map fun cs => ⟨cs.group "addr"⟩

/-- The lines `symbolized_info` collects for the matches `ms`, given the symbol
    `symbolize_address` returned for each: `f"  {reg} ({addr}): {symbol}"`, in order. -/
def infoLines (ms : List Caps) (symbols : List Symbol) : List String :=
  List.zipWith (fun cs symbol => infoLine u (Str.upper u ⟨cs.group "reg"⟩) ⟨cs.group "addr"⟩ symbol)
    ms symbols

/-- `symbolize_address`, called on the addresses `addrs` one after the other from the state
    `s`, returns the symbols `symbols` and leaves the state `s'`. -/
inductive Calls (elfFile addr2lineTool : String) : List String → σ → List Symbol → σ → Prop
  | nil {s} : Calls elfFile addr2lineTool [] s [] s
  | cons {addr addrs s s₁ symbol symbols s'} :
      symbolize addr elfFile addr2lineTool s = .ok (symbol, s₁) →
      Calls elfFile addr2lineTool addrs s₁ symbols s' →
      Calls elfFile addr2lineTool (addr :: addrs) s (symbol :: symbols) s'

/-! ### What a line prints -/

section Line

variable {u symbolize} {elfFile addr2lineTool line : String} {s s' : σ} {printed : List Print}

/-- A round of the loop over the matches that goes through: `symbolize_address` returned,
    and so did the rest of the loop. -/
theorem symbolizeMatches_cons_eq_ok {cs : Caps} {ms : List Caps} {symbolizedInfo : List String}
    (h : symbolizeMatches u symbolize elfFile addr2lineTool (cs :: ms) s =
      (printed, .ok (symbolizedInfo, s'))) :
    ∃ symbol s₁ infos, symbolize ⟨cs.group "addr"⟩ elfFile addr2lineTool s = .ok (symbol, s₁) ∧
      symbolizeMatches u symbolize elfFile addr2lineTool ms s₁ = (printed, .ok (infos, s')) ∧
      symbolizedInfo = infoLine u (Str.upper u ⟨cs.group "reg"⟩) ⟨cs.group "addr"⟩ symbol :: infos := by
  simp only [symbolizeMatches] at h
  split at h
  · rename_i symbol s₁ hf
    rcases hr : symbolizeMatches u symbolize elfFile addr2lineTool ms s₁ with ⟨p, _ | ⟨infos, s₂⟩⟩
    · simp [hr, Except.map] at h
    · simp only [hr, Except.map, Prod.mk.injEq, Except.ok.injEq] at h
      obtain ⟨rfl, rfl, rfl⟩ := h
      exact ⟨symbol, s₁, infos, hf, hr, rfl⟩
  · simp at h
  · simp at h

theorem symbolizeMatches_of_ok {symbolizedInfo : List String} {ms : List Caps}
    (h : symbolizeMatches u symbolize elfFile addr2lineTool ms s = (printed, .ok (symbolizedInfo, s'))) :
    printed = [] ∧ symbolizedInfo.length = ms.length := by
  induction ms generalizing s symbolizedInfo with
  | nil => cases h; exact ⟨rfl, rfl⟩
  | cons cs ms ih =>
    obtain ⟨_, _, infos, -, hr, rfl⟩ := symbolizeMatches_cons_eq_ok h
    simpa using ih hr

/-- A line that `parse_log_line` gets through: the loop over its matches went through,
    printing nothing, and the line prints nothing if `LOG_ADDR_REGEX` finds nothing in it,
    and its block otherwise: the line, one line for every match, and a rule. -/
theorem parseLogLine_of_ok (h : parseLogLine u symbolize line elfFile addr2lineTool s = (printed, .ok s')) :
    ∃ symbolizedInfo, symbolizeMatches u symbolize elfFile addr2lineTool
        ((logAddrRegex u).finditer line.data) s = ([], .ok (symbolizedInfo, s')) ∧
      symbolizedInfo.length = ((logAddrRegex u).finditer line.data).length ∧
      printed = if ((logAddrRegex u).finditer line.data).isEmpty then [] else block u line symbolizedInfo := by
  simp only [parseLogLine] at h
  split at h
  · rename_i p symbolizedInfo s₁ hm
    simp only [Prod.mk.injEq, Except.ok.injEq] at h
    obtain ⟨rfl, rfl⟩ := h
    obtain ⟨rfl, hlen⟩ := symbolizeMatches_of_ok hm
    exact ⟨symbolizedInfo, hm, hlen, List.nil_append _⟩
  · simp at h

/-- A step of the loop over the log that goes through: `parse_log_line` returned, and so
    did the rest of the loop. -/
theorem parseLines_cons_snd_eq_ok {lines : List String}
    (h : (parseLines u symbolize elfFile addr2lineTool (line :: lines) s).2 = .ok s') :
    ∃ printed s₁, parseLogLine u symbolize line elfFile addr2lineTool s = (printed, .ok s₁) ∧
      (parseLines u symbolize elfFile addr2lineTool lines s₁).2 = .ok s' := by
  simp only [parseLines] at h
  split at h
  · exact ⟨_, _, ‹_›, h⟩
  · simp at h

/-- A loop over the matches that goes through has called `symbolize_address` on the
    address of every match, in turn, and collected one line for each, in order. -/
theorem symbolizeMatches_calls {ms : List Caps} {symbolizedInfo : List String}
    (h : symbolizeMatches u symbolize elfFile addr2lineTool ms s =
      (printed, .ok (symbolizedInfo, s'))) :
    ∃ symbols, Calls symbolize elfFile addr2lineTool (ms.map fun cs => ⟨cs.group "addr"⟩) s
        symbols s' ∧
      symbolizedInfo = infoLines u ms symbols := by
  induction ms generalizing s symbolizedInfo with
  | nil => cases h; exact ⟨[], .nil, rfl⟩
  | cons cs ms ih =>
    obtain ⟨symbol, _, _, hf, hr, rfl⟩ := symbolizeMatches_cons_eq_ok h
    obtain ⟨symbols, hc, rfl⟩ := ih hr
    exact ⟨symbol :: symbols, .cons hf hc, rfl⟩

/-- A line that `parse_log_line` gets through: it called `symbolize_address` on the
    address of every register value `LOG_ADDR_REGEX` finds in it, in turn, and printed
    nothing if the line holds none, and otherwise its block: the stripped line, one line
    `  REG (addr): symbol` for every match in order, with the symbol returned for it, and
    a rule. -/
theorem parseLogLine_prints (h : parseLogLine u symbolize line elfFile addr2lineTool s = (printed, .ok s')) :
    ∃ symbols, Calls symbolize elfFile addr2lineTool (lineAddrs u line) s symbols s' ∧
      printed = if HasRegisterValue u line.data then
        block u line (infoLines u ((logAddrRegex u).finditer line.data) symbols) else [] := by
  obtain ⟨symbolizedInfo, hm, -, rfl⟩ := parseLogLine_of_ok h
  obtain ⟨symbols, hc, rfl⟩ := symbolizeMatches_calls hm
  refine ⟨symbols, hc, ?_⟩
  by_cases hv : HasRegisterValue u line.data
  · rw [if_pos hv, if_neg (by simpa using finditer_logAddrRegex_eq_nil_iff.not_left.2 hv)]
  · rw [if_neg hv, if_pos (by simpa using finditer_logAddrRegex_eq_nil_iff.2 hv)]

theorem parseLogLine_prints_pc :
    parseLogLine Ucd.ascii (symbolizeAddress Ucd.ascii ⟨fun _ => true, fun _ => .ok "0x10\nmain\n"⟩)
        "PC=0x10" "a.elf" "addr2line" Cache.empty =
      (block Ucd.ascii "PC=0x10" ["  PC (0x10): main"], .ok (Cache.empty.set "0x10" (.str "main"))) ∧
    ∃ symbols, Calls (symbolizeAddress Ucd.ascii ⟨fun _ => true, fun _ => .ok "0x10\nmain\n"⟩)
        "a.elf" "addr2line" (lineAddrs Ucd.ascii "PC=0x10") Cache.empty symbols
        (Cache.empty.set "0x10" (.str "main")) ∧
      block Ucd.ascii "PC=0x10" ["  PC (0x10): main"] =
        if HasRegisterValue Ucd.ascii "PC=0x10".data then
          block Ucd.ascii "PC=0x10"
            (infoLines Ucd.ascii ((logAddrRegex Ucd.ascii).finditer "PC=0x10".data) symbols)
        else [] :=
  by
  refine ⟨?h, parseLogLine_prints ?h⟩
  rfl

end Line

/-! ### A missing `addr2line` -/

section NotFound

variable {u symbolize} {elfFile addr2lineTool e : String} {s : σ}

theorem parseLogLine_of_notFound
    (hf : ∀ addr, symbolize addr elfFile addr2lineTool s = .error (.fileNotFound e)) (line : String) :
    parseLogLine u symbolize line elfFile addr2lineTool s =
      if HasRegisterValue u line.data then ([.err ("Error: " ++ e)], .error (.systemExit 1))
      else ([], .ok s) := by
  have hiff := (finditer_logAddrRegex_eq_nil_iff (u := u) (s := line.data)).not_left
  split_ifs with h
  · obtain ⟨cs, ms, hcm⟩ := List.exists_cons_of_ne_nil (hiff.2 h)
    simp [parseLogLine, hcm, symbolizeMatches, hf]
  · simp [parseLogLine, not_not.1 (hiff.1.mt h), symbolizeMatches]

/-- Where no call of `symbolize_address` gets past `FileNotFoundError`, the loop over the
    log prints nothing to the standard output: at the first line with a register value
    it prints the error and calls `sys.exit(1)`, and without one it goes through. -/
theorem parseLines_of_notFound
    (hf : ∀ addr, symbolize addr elfFile addr2lineTool s = .error (.fileNotFound e)) :
    ∀ lines : List String, parseLines u symbolize elfFile addr2lineTool lines s =
      if ∃ line ∈ lines, HasRegisterValue u line.data then
        ([.err ("Error: " ++ e)], .error (.systemExit 1))
      else ([], .ok s)
  | [] => by simp [parseLines]
  | line :: lines => by
    rw [parseLines, parseLogLine_of_notFound hf]
    by_cases h : HasRegisterValue u line.data
    · simp [h]
    · simp [h, parseLines_of_notFound hf lines]

/-- With the ELF file present and no `addr2line` to run, the script prints nothing to
    its standard output: at the first line with a register value it prints the error
    and exits with status 1, and without one it returns. -/
theorem symbolizeLog_of_notFound {w : World} {args : Args} (hx : w.pathExists args.elf)
    (hrun : ∀ cmd, w.run cmd = .notFound e) (logFile : List String) :
    symbolizeLog u w args logFile =
      if ∃ line ∈ logFile, HasRegisterValue u line.data then
        ([.err ("Error: " ++ e)], .error (.systemExit 1))
      else ([], .ok ()) := by
  have hf : ∀ addr, symbolizeAddress u w addr args.elf args.addr2line Cache.empty =
      .error (.fileNotFound e) := by
    simp [symbolizeAddress, hx, hrun]
  simp only [symbolizeLog, main, hx, Bool.not_true, Bool.false_eq_true, if_false,
    parseLines_of_notFound hf]
  split_ifs <;> rfl

/-- Without `addr2line`, a log whose second line holds a register value ends there. -/
theorem symbolizeLog_of_notFound_pc :
    symbolizeLog Ucd.ascii ⟨fun _ => true, fun _ => .notFound "x"⟩ ⟨"a.elf", "addr2line"⟩
      ["boot", "PC=0x10"] = ([.err "Error: x"], .error (.systemExit 1)) := by
  rw [symbolizeLog_of_notFound rfl (fun _ => rfl), if_pos (by decide)]
  rfl

end NotFound


end ChromeEc.SymbolizeLog
