import ChromeEc.SymbolizeLog.Memo
import Mathlib.Data.List.Nodup

/-!
# The runs of `addr2line`

What `ADDR2LINE_CACHE` is for: `addr2line` runs once for every address the log asks for,
and never twice for one.

`symbolizeAddressRuns` is `symbolize_address` with the command of every `subprocess.run`
written down where it is run: the body of `symbolizeAddress`, with the list of the commands
run so far beside the cache. Forgetting the list, it is `symbolize_address`
(`symbolizeAddressRuns_refines`), and the loop of `main` built on it is the script's
(`parseLines_symbolizeAddressRuns`). Its cache lookup decides which calls run a command:
those where the address is not in the cache and the ELF file is there
(`symbolizeAddressRuns_eq`).

A stretch of a run that asked for some addresses ran `addr2line` once on each of them that
was not in the cache before it, and on no other (`RanFor`); a call is such a stretch, and
stretches one after the other make one (`RanFor.append`). So is a whole run:

* `parseLines_runs`: over a run of the loop of `main` that goes through, with the ELF file
  present, `subprocess.run` runs the `addr2line` command of every address of the log that
  is not in the cache at the start, once, and no other command.
-/

namespace ChromeEc.SymbolizeLog

variable (u : Ucd) (w : World)

/-- `symbolize_address`, with the command of every `subprocess.run` it makes written down
    where it makes it, after the commands run so far. (A call that raises ends the script,
    and what it ran with it.) -/
def symbolizeAddressRuns : Symbolizer (Cache × List (List String)) :=
  fun addr elfFile addr2lineTool (cache, runs) =>
    match cache addr with
    | some symbol => .ok (symbol, cache, runs)
    | none =>
      if !w.pathExists elfFile then .ok (.str ("ELF file not found: " ++ elfFile), cache, runs)
      else
        let cmd := addr2lineCmd addr elfFile addr2lineTool
        let runs := runs ++ [cmd]
        match w.run cmd with
        | .ok stdout =>
          match Str.split (Str.strip u stdout) with
          | _ :: line :: _ =>
            let symbolized := Symbol.str (Str.strip u line)
            .ok (symbolized, cache.set addr symbolized, runs)
          | outputLines => .ok (.lines outputLines, cache.set addr (.lines outputLines), runs)
        | .failed stderr =>
          let errorMsg := Symbol.str ("addr2line failed for " ++ addr ++ ": " ++ Str.strip u stderr)
          .ok (errorMsg, cache.set addr errorMsg, runs)
        | .notFound e => .error (.fileNotFound e)
        | .raised e => .error (.raised e)

variable {u w} {elfFile addr2lineTool : String}

/-- A call returns what `symbolize_address` returns, and writes its command down exactly
    where the address is not in the cache and the ELF file is there. -/
theorem symbolizeAddressRuns_eq (addr : String) (cache : Cache) (runs : List (List String)) :
    symbolizeAddressRuns u w addr elfFile addr2lineTool (cache, runs) =
      (symbolizeAddress u w addr elfFile addr2lineTool cache).map fun (symbol, cache') =>
        (symbol, cache', if (cache addr).isNone && w.pathExists elfFile then
          runs ++ [addr2lineCmd addr elfFile addr2lineTool] else runs) := by
  simp only [symbolizeAddressRuns, symbolizeAddress]
  cases cache addr with
  | some symbol => rfl
  | none =>
    cases w.pathExists elfFile with
    | false => rfl
    | true =>
      dsimp only
      cases w.run (addr2lineCmd addr elfFile addr2lineTool) with
      | ok stdout =>
        dsimp only
        generalize Str.split (Str.strip u stdout) = outputLines
        rcases outputLines with _ | ⟨_, _ | ⟨_, _⟩⟩ <;> rfl
      | failed | notFound | raised => rfl

theorem symbolizeAddressRuns_refines :
    Refines (fun _ => True) Prod.fst (symbolizeAddressRuns u w) (symbolizeAddress u w)
      elfFile addr2lineTool where
  map_eq addr s _ := by
    obtain ⟨cache, runs⟩ := s
    rw [symbolizeAddressRuns_eq]
    cases symbolizeAddress u w addr elfFile addr2lineTool cache <;> rfl
  keeps _ _ _ _ _ _ := trivial

/-- With the runs written down, the loop of `main` prints what the script's prints, ends
    the same way, and leaves the same cache. -/
theorem parseLines_symbolizeAddressRuns (lines : List String) (s : Cache × List (List String)) :
    parseLines u (symbolizeAddress u w) elfFile addr2lineTool lines s.1 =
      Prod.map id (Except.map Prod.fst)
        (parseLines u (symbolizeAddressRuns u w) elfFile addr2lineTool lines s) :=
  parseLines_refines u symbolizeAddressRuns_refines lines trivial

/-! ### Stretches of a run -/

/-- `addr2lineCmd` names its address: two commands for one ELF file and one tool are one
    only for one address. -/
theorem addr2lineCmd_inj {a a' : String} :
    addr2lineCmd a elfFile addr2lineTool = addr2lineCmd a' elfFile addr2lineTool ↔ a = a' := by
  simp [addr2lineCmd]

variable (elfFile addr2lineTool) in
/-- A stretch of a run that asked for the addresses `addrs`, from the cache `c` and the
    commands `runs` to `c'` and `runs'`: it ran the `addr2line` command of each of them
    that was not in `c`, once, and no other, and `c'` holds what `c` held and each of
    them. -/
def RanFor (addrs : List String) (c : Cache) (runs : List (List String)) (c' : Cache)
    (runs' : List (List String)) : Prop :=
  ∃ new : List String, runs' = runs ++ new.map (addr2lineCmd · elfFile addr2lineTool) ∧
    new.Nodup ∧ (∀ a, a ∈ new ↔ a ∈ addrs ∧ c a = none) ∧
      ∀ a, c' a = none ↔ c a = none ∧ a ∉ addrs

namespace RanFor

variable {c c₁ c₂ : Cache} {runs runs₁ runs₂ : List (List String)} {A B : List String}

theorem nil : RanFor elfFile addr2lineTool [] c runs c runs :=
  ⟨[], (List.append_nil _).symm, List.nodup_nil, by simp, by simp⟩

/-- Two stretches, one after the other, are one: what the second runs `addr2line` on was
    not in the cache after the first, so neither the first asked for it nor did the cache
    hold it before. -/
theorem append (h₁ : RanFor elfFile addr2lineTool A c runs c₁ runs₁)
    (h₂ : RanFor elfFile addr2lineTool B c₁ runs₁ c₂ runs₂) :
    RanFor elfFile addr2lineTool (A ++ B) c runs c₂ runs₂ := by
  obtain ⟨new₁, rfl, hnd₁, hmem₁, hdom₁⟩ := h₁
  obtain ⟨new₂, rfl, hnd₂, hmem₂, hdom₂⟩ := h₂
  refine ⟨new₁ ++ new₂, by rw [List.map_append, List.append_assoc], ?_, fun a => ?_, fun a => ?_⟩
  · refine hnd₁.append hnd₂ fun a ha₁ ha₂ => ?_
    exact ((hdom₁ a).1 ((hmem₂ a).1 ha₂).2).2 ((hmem₁ a).1 ha₁).1
  · rw [List.mem_append, hmem₁, hmem₂, hdom₁, List.mem_append]
    tauto
  · rw [hdom₂, hdom₁, List.mem_append]
    tauto

end RanFor

/-! ### The runs of a call, a line and the log -/

/-- A call that returns, with the ELF file present, runs the command of its address if it
    is not in the cache. -/
theorem symbolizeAddressRuns_ranFor {addr : String} {c c' : Cache} {runs runs' : List (List String)}
    {symbol : Symbol} (hx : w.pathExists elfFile)
    (h : symbolizeAddressRuns u w addr elfFile addr2lineTool (c, runs) = .ok (symbol, c', runs')) :
    RanFor elfFile addr2lineTool [addr] c runs c' runs' := by
  rw [symbolizeAddressRuns_eq] at h
  cases hs : symbolizeAddress u w addr elfFile addr2lineTool c with
  | error e => simp [hs, Except.map] at h
  | ok x =>
    obtain ⟨symbol', c''⟩ := x
    simp only [hs, Except.map, Except.ok.injEq, Prod.mk.injEq] at h
    obtain ⟨rfl, rfl, rfl⟩ := h
    rcases symbolizeAddress_eq_ok hs with ⟨hhit, rfl⟩ | ⟨hmiss, -, rfl⟩
    · -- a hit: nothing runs, and the cache stays
      refine ⟨[], by simp [hhit], List.nodup_nil, fun a => ?_, fun a => ?_⟩ <;>
        by_cases ha : a = addr <;> simp [ha, hhit]
    · -- a miss: `addr2line` runs, and the cache takes the address
      refine ⟨[addr], by simp [hmiss, hx], List.nodup_singleton _, fun a => ?_, fun a => ?_⟩ <;>
        by_cases ha : a = addr <;> simp [ha, hmiss, hx]

theorem symbolizeMatches_ranFor {ms : List Caps} {c c' : Cache} {runs runs' : List (List String)}
    {printed : List Print} {symbolizedInfo : List String} (hx : w.pathExists elfFile)
    (h : symbolizeMatches u (symbolizeAddressRuns u w) elfFile addr2lineTool ms (c, runs) =
      (printed, .ok (symbolizedInfo, c', runs'))) :
    RanFor elfFile addr2lineTool (ms.map fun cs => ⟨cs.group "addr"⟩) c runs c' runs' := by
  induction ms generalizing c runs symbolizedInfo with
  | nil => cases h; exact .nil
  | cons cs ms ih =>
    obtain ⟨_, ⟨c₁, runs₁⟩, _, hf, hr, -⟩ := symbolizeMatches_cons_eq_ok h
    exact (symbolizeAddressRuns_ranFor hx hf).append (ih hr)

theorem parseLines_ranFor {lines : List String} {c c' : Cache} {runs runs' : List (List String)}
    (hx : w.pathExists elfFile)
    (h : (parseLines u (symbolizeAddressRuns u w) elfFile addr2lineTool lines (c, runs)).2 =
      .ok (c', runs')) :
    RanFor elfFile addr2lineTool (lines.flatMap (lineAddrs u)) c runs c' runs' := by
  induction lines generalizing c runs with
  | nil => cases h; exact .nil
  | cons line lines ih =>
    obtain ⟨_, ⟨c₁, runs₁⟩, hline, hrest⟩ := parseLines_cons_snd_eq_ok h
    obtain ⟨_, hm, -⟩ := parseLogLine_of_ok hline
    exact (symbolizeMatches_ranFor hx hm).append (ih hrest)

/-- Over a run of the loop of `main` that goes through, with the ELF file present,
    `subprocess.run` runs the `addr2line` command of every address of the log that is not
    in the cache at the start, once, and no other command. -/
theorem parseLines_runs {lines : List String} {cache cache' : Cache} {runs : List (List String)}
    (hx : w.pathExists elfFile)
    (h : (parseLines u (symbolizeAddressRuns u w) elfFile addr2lineTool lines (cache, [])).2 =
      .ok (cache', runs)) :
    runs.Nodup ∧ ∀ cmd, cmd ∈ runs ↔ ∃ addr ∈ lines.flatMap (lineAddrs u),
      cache addr = none ∧ cmd = addr2lineCmd addr elfFile addr2lineTool := by
  obtain ⟨new, rfl, hnd, hmem, -⟩ := parseLines_ranFor hx h
  refine ⟨List.nil_append _ ▸ hnd.map fun _ _ => addr2lineCmd_inj.1, fun cmd => ?_⟩
  simp only [List.nil_append, List.mem_map, hmem, and_assoc, eq_comm]

/-- A log that asks for `0x10` twice and for `0x20`, which the cache holds: `addr2line`
    runs once, on `0x10`. -/
theorem parseLines_runs_pc :
    (⟨fun _ => true, fun _ => .ok "0x10\nmain\n"⟩ : World).pathExists "a.elf" ∧
      (parseLines Ucd.ascii (symbolizeAddressRuns Ucd.ascii ⟨fun _ => true, fun _ => .ok "0x10\nmain\n"⟩)
          "a.elf" "addr2line" ["PC=0x10", "sp=0x20", "lr: 0x10"]
          (Cache.empty.set "0x20" (.str "f"), [])).2 =
        .ok ((Cache.empty.set "0x20" (.str "f")).set "0x10" (.str "main"),
          [addr2lineCmd "0x10" "a.elf" "addr2line"]) ∧
      [addr2lineCmd "0x10" "a.elf" "addr2line"].Nodup ∧
      ∀ cmd, cmd ∈ [addr2lineCmd "0x10" "a.elf" "addr2line"] ↔
        ∃ addr ∈ ["PC=0x10", "sp=0x20", "lr: 0x10"].flatMap (lineAddrs Ucd.ascii),
          Cache.empty.set "0x20" (.str "f") addr = none ∧ cmd = addr2lineCmd addr "a.elf" "addr2line" := by
  refine ⟨rfl, ?h, parseLines_runs rfl ?h⟩
  rfl

end ChromeEc.SymbolizeLog
