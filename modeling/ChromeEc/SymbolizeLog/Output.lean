import ChromeEc.SymbolizeLog.Memo

/-!
# What the script writes

Two facts about the runs of the script:

* `symbolizeLog_filter`: on every system and every log, the lines where `LOG_ADDR_REGEX`
  finds nothing play no part: deleting them from the log changes nothing the script
  prints, nor how it ends;
* `symbolizeLog_stderr`: where running `addr2line` raises nothing but `FileNotFoundError`,
  the script writes lines to the standard output, then at most one line to the standard
  error, and that line is there exactly when the process exits with status 1
  (`exitStatus`; an exception nothing catches exits with 1 after a traceback, which is why
  the other exceptions are left out). The shape is `ErrLast`, which every loop of the
  script keeps (`symbolizeMatches_errLast`, `parseLines_errLast`), given a
  `symbolize_address` that raises only `FileNotFoundError` (`symbolizeAddress_eq_error`).
-/

namespace ChromeEc.SymbolizeLog

variable {σ : Type} {u : Ucd} {f : Symbolizer σ} {elfFile addr2lineTool : String}

/-! ### Lines without a register value -/

theorem parseLogLine_of_not_hasRegisterValue {line : String} (h : ¬HasRegisterValue u line.data)
    (s : σ) : parseLogLine u f line elfFile addr2lineTool s = ([], .ok s) := by
  simp [parseLogLine, finditer_logAddrRegex_eq_nil_iff.2 h, symbolizeMatches]

/-- The loop over the log runs on the lines that hold a register value as on the whole
    log. -/
theorem parseLines_filter (lines : List String) (s : σ) :
    parseLines u f elfFile addr2lineTool (lines.filter fun line => decide (HasRegisterValue u line.data)) s =
      parseLines u f elfFile addr2lineTool lines s := by
  induction lines generalizing s with
  | nil => rfl
  | cons line lines ih =>
    by_cases h : HasRegisterValue u line.data
    · simp only [List.filter_cons, h, decide_True, if_true, parseLines, ih]
    · rw [List.filter_cons, if_neg (by simpa using h), ih, parseLines,
        parseLogLine_of_not_hasRegisterValue h]
      rfl

/-- Deleting from the log the lines where `LOG_ADDR_REGEX` finds nothing changes nothing
    the script prints, nor how it ends. -/
theorem symbolizeLog_filter (w : World) (args : Args) (logFile : List String) :
    symbolizeLog u w args (logFile.filter fun line => decide (HasRegisterValue u line.data)) =
      symbolizeLog u w args logFile := by
  simp only [symbolizeLog, main, parseLines_filter]

/-! ### The standard error -/

/-- The exit status of the process that an exception ends: `c` for `sys.exit(c)`, and `1`
    for an exception nothing catches, after CPython has written its traceback to the
    standard error. -/
def Exc.exitStatus : Exc → Nat
  | .systemExit c => c
  | _ => 1

/-- The exit status of the process that runs the script, as the run ends: `0` when `main`
    returns, and that of the exception that ends it otherwise. -/
def exitStatus {α : Type} : Except Exc α → Nat
  | .ok _ => 0
  | .error e => e.exitStatus

/-- How a run leaves what it printed: lines to the standard output, then at most one line
    to the standard error, which is there exactly when the process exits with status 1. -/
def ErrLast {α : Type} (printed : List Print) (r : Except Exc α) : Prop :=
  ∃ (outs : List String) (err : Option String),
    printed = outs.map .out ++ err.toList.map .err ∧ (err.isSome ↔ exitStatus r = 1)

namespace ErrLast

variable {α β : Type} {printed : List Print} {r : Except Exc α}

theorem of_out (outs : List String) (x : α) : ErrLast (outs.map .out) (.ok x : Except Exc α) :=
  ⟨outs, none, by simp, by simp [exitStatus]⟩

theorem exit (e : String) : ErrLast [.err e] (.error (.systemExit 1) : Except Exc α) :=
  ⟨[], some e, rfl, by simp [exitStatus, Exc.exitStatus]⟩

/-- Only the exception of a run that raises counts, not the type of what it would have
    returned. -/
theorem error_iff {e : Exc} :
    ErrLast printed (.error e : Except Exc α) ↔ ErrLast printed (.error e : Except Exc β) :=
  Iff.rfl

theorem map (h : ErrLast printed r) (g : α → β) : ErrLast printed (r.map g) := by
  obtain ⟨outs, err, rfl, hiff⟩ := h
  refine ⟨outs, err, rfl, hiff.trans ?_⟩
  cases r <;> rfl

/-- Lines printed to the standard output before a run keep its shape. -/
theorem out_append (outs : List String) (h : ErrLast printed r) :
    ErrLast (outs.map .out ++ printed) r := by
  obtain ⟨outs', err, rfl, hiff⟩ := h
  exact ⟨outs ++ outs', err, by simp, hiff⟩

/-- A run that returns printed to the standard output only. -/
theorem eq_map_out {x : α} (h : ErrLast printed (.ok x)) :
    ∃ outs : List String, printed = outs.map .out := by
  obtain ⟨outs, err, rfl, hiff⟩ := h
  cases err with
  | none => exact ⟨outs, by simp⟩
  | some _ => simp [exitStatus] at hiff

end ErrLast

/-- `symbolize_address` raises only what `subprocess.run` raises: where running `addr2line`
    raises nothing but `FileNotFoundError`, that is all it raises. -/
theorem symbolizeAddressUncached_eq_error {w : World} {addr : String} {e : Exc}
    (hrun : ∀ cmd e, w.run cmd ≠ .raised e)
    (h : symbolizeAddressUncached u w addr elfFile addr2lineTool = .error e) :
    ∃ m, e = .fileNotFound m := by
  unfold symbolizeAddressUncached at h
  split at h
  · cases h
  · split at h
    · split at h <;> cases h
    · cases h
    · cases h
      exact ⟨_, rfl⟩
    · rename_i hr
      exact absurd hr (hrun _ _)

theorem symbolizeAddress_eq_error {w : World} {addr : String} {cache : Cache} {e : Exc}
    (hrun : ∀ cmd e, w.run cmd ≠ .raised e)
    (h : symbolizeAddress u w addr elfFile addr2lineTool cache = .error e) :
    ∃ m, e = .fileNotFound m := by
  cases hc : cache addr with
  | some symbol => rw [symbolizeAddress_of_hit hc] at h; cases h
  | none =>
    rw [symbolizeAddress_of_miss hc] at h
    cases hu : symbolizeAddressUncached u w addr elfFile addr2lineTool with
    | error e' =>
      rw [hu] at h
      cases h
      exact symbolizeAddressUncached_eq_error hrun hu
    | ok _ => rw [hu] at h; cases h

/-- The block of a line goes to the standard output. -/
theorem block_eq_map_out (line : String) (symbolizedInfo : List String) :
    block u line symbolizedInfo =
      (("[Log Line]: " ++ Str.strip u line) :: symbolizedInfo ++
        [(⟨List.replicate 20 '-'⟩ : String)]).map .out := by
  simp [block]

section Stderr

variable (u) (hf : ∀ addr s e, f addr elfFile addr2lineTool s = .error e → ∃ m, e = .fileNotFound m)
include hf

theorem symbolizeMatches_errLast : ∀ (ms : List Caps) (s : σ),
    ErrLast (symbolizeMatches u f elfFile addr2lineTool ms s).1
      (symbolizeMatches u f elfFile addr2lineTool ms s).2
  | [], s => ErrLast.of_out [] ([], s)
  | cs :: ms, s => by
    simp only [symbolizeMatches]
    split
    · exact (symbolizeMatches_errLast ms _).map _
    · exact ErrLast.exit _
    · -- an exception `parse_log_line` does not catch: there is none
      rename_i e hne hfe
      obtain ⟨m, rfl⟩ := hf _ s e hfe
      exact absurd rfl (hne m)

theorem parseLogLine_errLast (line : String) (s : σ) :
    ErrLast (parseLogLine u f line elfFile addr2lineTool s).1
      (parseLogLine u f line elfFile addr2lineTool s).2 := by
  simp only [parseLogLine]
  split
  · rename_i printed symbolizedInfo s' hm
    obtain ⟨rfl, -⟩ := symbolizeMatches_of_ok hm
    split
    · exact ErrLast.of_out [] s'
    · rw [List.nil_append, block_eq_map_out]
      exact ErrLast.of_out _ s'
  · rename_i printed e hm
    have h := symbolizeMatches_errLast u hf ((logAddrRegex u).finditer line.data) s
    rw [hm] at h
    exact ErrLast.error_iff.1 h

theorem parseLines_errLast : ∀ (lines : List String) (s : σ),
    ErrLast (parseLines u f elfFile addr2lineTool lines s).1
      (parseLines u f elfFile addr2lineTool lines s).2
  | [], s => ErrLast.of_out [] s
  | line :: lines, s => by
    have h := parseLogLine_errLast u hf line s
    simp only [parseLines]
    split
    · rename_i printed s' hl
      rw [hl] at h
      obtain ⟨outs, rfl⟩ := h.eq_map_out
      exact (parseLines_errLast lines s').out_append outs
    · rename_i printed e hl
      rwa [hl] at h

end Stderr

theorem main_errLast {w : World} {args : Args}
    (hf : ∀ addr s e, f addr args.elf args.addr2line s = .error e → ∃ m, e = .fileNotFound m)
    (logFile : List String) (s : σ) :
    ErrLast (main u f w args logFile s).1 (main u f w args logFile s).2 := by
  simp only [main]
  split
  · exact ErrLast.exit _
  · exact (parseLines_errLast u hf logFile s).map _

end ChromeEc.SymbolizeLog
