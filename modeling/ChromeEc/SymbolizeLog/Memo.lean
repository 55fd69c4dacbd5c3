import ChromeEc.SymbolizeLog.Log

/-!
# The cache is invisible

`ADDR2LINE_CACHE` changes nothing the script prints, nor where and how it ends: for every
log and every fixed system, the script with the cache and the script without it behave
alike (`symbolizeLog_eq_uncached`).

The argument is a refinement. A `Symbolizer` `f` refines `g` through a map `φ` of its
states, on the states that satisfy an invariant (`Refines`); then `parse_log_line`, its
loop over the log and `main` built on `f` behave as those built on `g`
(`main_refines`). For the cache, the invariant is that every entry is what
`symbolize_address` without the cache returns for its address (`Sound`): every call of
`symbolize_address` keeps it (`symbolizeAddress_sound`), and so does a whole run
(`parseLines_sound`).

So the script prints the log line by line: where every address gets a symbol, it prints
the block of every line that holds a register value, each a function of the line alone
(`lineBlock`, `symbolizeLog_eq_flatMap`); where `symbolize_address` first raises, it
prints the blocks of the lines before and ends as the exception says, with nothing of the
block of the line it raised on (`lineError`, `symbolizeLog_of_error`).
-/

namespace ChromeEc.SymbolizeLog

section Refinement

variable {σ τ : Type} (Inv : σ → Prop) (φ : σ → τ) (f : Symbolizer σ) (g : Symbolizer τ)
  (elfFile addr2lineTool : String)

/-- `f` keeps `Inv`, for one ELF file and one tool: from a state of `Inv`, it returns
    one. -/
def Keeps : Prop :=
  ∀ addr s x s', Inv s → f addr elfFile addr2lineTool s = .ok (x, s') → Inv s'

/-- `f` refines `g` through `φ`, on the states that satisfy `Inv`, for one ELF file and
    one tool. -/
structure Refines : Prop where
  /-- From a state of `Inv`, `f` returns what `g` does from its image, with the image of
      its new state. -/
  map_eq : ∀ addr s, Inv s →
    (f addr elfFile addr2lineTool s).map (Prod.map id φ) = g addr elfFile addr2lineTool (φ s)
  keeps : Keeps Inv f elfFile addr2lineTool

variable {Inv φ f g elfFile addr2lineTool} (u : Ucd)

theorem symbolizeMatches_refines (h : Refines Inv φ f g elfFile addr2lineTool) :
    ∀ (ms : List Caps) {s}, Inv s →
      symbolizeMatches u g elfFile addr2lineTool ms (φ s) =
        Prod.map id (Except.map (Prod.map id φ)) (symbolizeMatches u f elfFile addr2lineTool ms s)
  | [], s, _ => rfl
  | cs :: ms, s, hs => by
    simp only [symbolizeMatches, ← h.map_eq ⟨cs.group "addr"⟩ s hs]
    cases hf : f ⟨cs.group "addr"⟩ elfFile addr2lineTool s with
    | error e => cases e <;> rfl
    | ok x =>
      obtain ⟨symbol, s'⟩ := x
      simp only [Except.map, Prod.map, id, symbolizeMatches_refines h ms (h.keeps _ _ _ _ hs hf)]
      obtain ⟨printed, r⟩ := symbolizeMatches u f elfFile addr2lineTool ms s'
      cases r <;> rfl

theorem symbolizeMatches_inv (h : Keeps Inv f elfFile addr2lineTool) {ms : List Caps}
    {s s' : σ} {printed symbolizedInfo} (hs : Inv s)
    (hok : symbolizeMatches u f elfFile addr2lineTool ms s = (printed, .ok (symbolizedInfo, s'))) :
    Inv s' := by
  induction ms generalizing s symbolizedInfo with
  | nil => cases hok; exact hs
  | cons cs ms ih =>
    obtain ⟨_, s₁, _, hf, hr, -⟩ := symbolizeMatches_cons_eq_ok hok
    exact ih (h _ _ _ _ hs hf) hr

theorem parseLogLine_inv (h : Keeps Inv f elfFile addr2lineTool) {line s s' printed} (hs : Inv s)
    (hok : parseLogLine u f line elfFile addr2lineTool s = (printed, .ok s')) : Inv s' :=
  have ⟨_, hm, _⟩ := parseLogLine_of_ok hok
  symbolizeMatches_inv u h hs hm

theorem parseLogLine_refines (h : Refines Inv φ f g elfFile addr2lineTool) {s} (hs : Inv s)
    (line : String) :
    parseLogLine u g line elfFile addr2lineTool (φ s) =
      Prod.map id (Except.map φ) (parseLogLine u f line elfFile addr2lineTool s) := by
  simp only [parseLogLine, symbolizeMatches_refines u h _ hs]
  obtain ⟨printed, r⟩ := symbolizeMatches u f elfFile addr2lineTool ((logAddrRegex u).finditer line.data) s
  rcases r with _ | ⟨_, _⟩ <;> rfl

/-- A run over the log keeps `Inv`. -/
theorem parseLines_inv (h : Keeps Inv f elfFile addr2lineTool) (lines : List String) {s s' : σ}
    (hs : Inv s) (hok : (parseLines u f elfFile addr2lineTool lines s).2 = .ok s') : Inv s' := by
  induction lines generalizing s with
  | nil => cases hok; exact hs
  | cons line lines ih =>
    obtain ⟨_, s₁, hline, hrest⟩ := parseLines_cons_snd_eq_ok hok
    exact ih (parseLogLine_inv u h hs hline) hrest

theorem parseLines_refines (h : Refines Inv φ f g elfFile addr2lineTool) :
    ∀ (lines : List String) {s}, Inv s →
      parseLines u g elfFile addr2lineTool lines (φ s) =
        Prod.map id (Except.map φ) (parseLines u f elfFile addr2lineTool lines s)
  | [], s, _ => rfl
  | line :: lines, s, hs => by
    simp only [parseLines, parseLogLine_refines u h hs]
    rcases hline : parseLogLine u f line elfFile addr2lineTool s with ⟨printed, _ | s₁⟩
    · rfl
    · simp only [Prod.map, id, Except.map, parseLines_refines h lines (parseLogLine_inv u h.keeps hs hline)]

/-- `main` built on `f`, from a state of `Inv`, behaves as `main` built on `g` from its
    image: it prints the same lines and ends the same way. -/
theorem main_refines {w : World} {args : Args} {s : σ} (logFile : List String)
    (h : Refines Inv φ f g args.elf args.addr2line) (hs : Inv s) :
    main u g w args logFile (φ s) = main u f w args logFile s := by
  simp only [main, parseLines_refines u h logFile hs]
  split
  · rfl
  · obtain ⟨printed, r⟩ := parseLines u f args.elf args.addr2line logFile s
    cases r <;> rfl

end Refinement

section Cache

variable {u : Ucd} {w : World} {elfFile addr2lineTool addr : String} {cache : Cache}

variable (u w elfFile addr2lineTool) in
/-- Every entry of the cache is what `symbolize_address` without the cache returns for
    its address. -/
def Sound (cache : Cache) : Prop :=
  ∀ addr symbol, cache addr = some symbol →
    symbolizeAddressUncached u w addr elfFile addr2lineTool = .ok symbol

theorem sound_empty : Sound u w elfFile addr2lineTool Cache.empty := by
  simp [Sound]

theorem Sound.set {symbol : Symbol} (hc : Sound u w elfFile addr2lineTool cache)
    (h : symbolizeAddressUncached u w addr elfFile addr2lineTool = .ok symbol) :
    Sound u w elfFile addr2lineTool (cache.set addr symbol) := by
  intro a s ha
  simp only [Cache.set_apply] at ha
  split at ha
  · cases ha
    subst a
    exact h
  · exact hc a s ha

/-- Every call of `symbolize_address` keeps the cache sound, in each of its branches. -/
theorem symbolizeAddress_sound {symbol : Symbol} {cache' : Cache}
    (hc : Sound u w elfFile addr2lineTool cache)
    (h : symbolizeAddress u w addr elfFile addr2lineTool cache = .ok (symbol, cache')) :
    Sound u w elfFile addr2lineTool cache' := by
  rcases symbolizeAddress_eq_ok h with ⟨-, rfl⟩ | ⟨-, hu, rfl⟩
  · exact hc
  · split
    · exact hc.set hu
    · exact hc

/-- From a sound cache, `symbolize_address` returns what it returns without the
    cache. -/
theorem symbolizeAddress_map_fst (hc : Sound u w elfFile addr2lineTool cache) :
    (symbolizeAddress u w addr elfFile addr2lineTool cache).map Prod.fst =
      symbolizeAddressUncached u w addr elfFile addr2lineTool := by
  cases hcache : cache addr with
  | some s => rw [symbolizeAddress_of_hit hcache, hc addr s hcache]; rfl
  | none =>
    rw [symbolizeAddress_of_miss hcache]
    cases symbolizeAddressUncached u w addr elfFile addr2lineTool <;> rfl

theorem symbolizeAddress_refines :
    Refines (Sound u w elfFile addr2lineTool) (fun _ => ()) (symbolizeAddress u w)
      (uncachedSymbolizer u w) elfFile addr2lineTool where
  map_eq addr cache hc := by
    rw [uncachedSymbolizer, ← symbolizeAddress_map_fst hc]
    cases symbolizeAddress u w addr elfFile addr2lineTool cache <;> rfl
  keeps _ _ _ _ hc h := symbolizeAddress_sound hc h

/-- The cache stays sound over a whole run. -/
theorem parseLines_sound {lines : List String} {cache' : Cache}
    (hc : Sound u w elfFile addr2lineTool cache)
    (h : (parseLines u (symbolizeAddress u w) elfFile addr2lineTool lines cache).2 = .ok cache') :
    Sound u w elfFile addr2lineTool cache' :=
  parseLines_inv u symbolizeAddress_refines.keeps lines hc h

theorem parseLines_sound_pc :
    Sound Ucd.ascii ⟨fun _ => true, fun _ => .ok "0x10\nmain\n"⟩ "a.elf" "addr2line" Cache.empty ∧
      (parseLines Ucd.ascii (symbolizeAddress Ucd.ascii ⟨fun _ => true, fun _ => .ok "0x10\nmain\n"⟩)
          "a.elf" "addr2line" ["PC=0x10", "lr: 0x10"] Cache.empty).2 =
        .ok (Cache.empty.set "0x10" (.str "main")) ∧
      Sound Ucd.ascii ⟨fun _ => true, fun _ => .ok "0x10\nmain\n"⟩ "a.elf" "addr2line"
        (Cache.empty.set "0x10" (.str "main")) :=
  by
  refine ⟨sound_empty, ?h, parseLines_sound sound_empty ?h⟩
  rfl

/-- The script with `ADDR2LINE_CACHE` prints the same lines as the script without it, in
    the same order, and ends the same way, on every log. -/
theorem symbolizeLog_eq_uncached (u : Ucd) (w : World) (args : Args) (logFile : List String) :
    symbolizeLog u w args logFile = symbolizeLogUncached u w args logFile :=
  (main_refines u logFile symbolizeAddress_refines sound_empty).symm

/-! ### What the cache holds -/

/-- `cache` holds every entry of `c₀`, unchanged. -/
def Cache.Extends (c₀ cache : Cache) : Prop :=
  ∀ a symbol, c₀ a = some symbol → cache a = some symbol

/-- `symbolize_address` changes no entry of the cache: it only adds one on a miss. -/
theorem symbolizeAddress_extends (c₀ : Cache) :
    Keeps (Cache.Extends c₀) (symbolizeAddress u w) elfFile addr2lineTool := by
  intro addr cache _ cache' hc h
  rcases symbolizeAddress_eq_ok h with ⟨-, rfl⟩ | ⟨hcache, -, rfl⟩
  · exact hc
  · intro a s ha
    have hca := hc a s ha
    split
    · have : a ≠ addr := by rintro rfl; simp [hcache] at hca
      simp [this, hca]
    · exact hca

/-- With the ELF file present, the address is in the cache after `symbolize_address`
    returns, with what it returned. -/
theorem symbolizeAddress_stores {symbol : Symbol} {cache' : Cache} (hx : w.pathExists elfFile)
    (h : symbolizeAddress u w addr elfFile addr2lineTool cache = .ok (symbol, cache')) :
    cache' addr = some symbol := by
  rcases symbolizeAddress_eq_ok h with ⟨hcache, rfl⟩ | ⟨-, -, rfl⟩
  · exact hcache
  · simp [hx]

theorem symbolizeMatches_stores {ms : List Caps} {printed : List Print}
    {symbolizedInfo : List String} {cache' : Cache} (hx : w.pathExists elfFile)
    (h : symbolizeMatches u (symbolizeAddress u w) elfFile addr2lineTool ms cache =
      (printed, .ok (symbolizedInfo, cache'))) :
    ∀ cs ∈ ms, (cache' ⟨cs.group "addr"⟩).isSome := by
  induction ms generalizing cache symbolizedInfo with
  | nil => simp
  | cons cs ms ih =>
    obtain ⟨_, c₁, _, hc₁, hr, -⟩ := symbolizeMatches_cons_eq_ok h
    have hext := symbolizeMatches_inv u (symbolizeAddress_extends c₁) (fun _ _ h => h) hr
    rintro cs' (_ | ⟨_, hcs'⟩)
    · simp [hext _ _ (symbolizeAddress_stores hx hc₁)]
    · exact ih hr cs' hcs'

/-- After a run that goes through, with the ELF file present, the cache holds every
    address of every register value of the log, and every entry it held before, as it
    was. -/
theorem parseLines_memo {lines : List String} {cache' : Cache} (hx : w.pathExists elfFile)
    (h : (parseLines u (symbolizeAddress u w) elfFile addr2lineTool lines cache).2 = .ok cache') :
    Cache.Extends cache cache' ∧
      ∀ line ∈ lines, ∀ cs ∈ (logAddrRegex u).finditer line.data, (cache' ⟨cs.group "addr"⟩).isSome := by
  refine ⟨parseLines_inv u (symbolizeAddress_extends cache) lines (fun _ _ h => h) h, ?_⟩
  induction lines generalizing cache with
  | nil => simp
  | cons line lines ih =>
    obtain ⟨_, c₁, hline, hrest⟩ := parseLines_cons_snd_eq_ok h
    have hext := parseLines_inv u (symbolizeAddress_extends c₁) lines (fun _ _ h => h) hrest
    rintro l (_ | ⟨_, hl⟩) cs hcs
    · obtain ⟨_, hm, -⟩ := parseLogLine_of_ok hline
      exact Option.isSome_iff_exists.2
        ⟨_, hext _ _ (Option.get_mem (symbolizeMatches_stores hx hm cs hcs))⟩
    · exact ih hrest l hl cs hcs

theorem parseLines_memo_pc :
    (⟨fun _ => true, fun _ => .ok "0x10\nmain\n"⟩ : World).pathExists "a.elf" ∧
      (parseLines Ucd.ascii (symbolizeAddress Ucd.ascii ⟨fun _ => true, fun _ => .ok "0x10\nmain\n"⟩)
          "a.elf" "addr2line" ["PC=0x10", "lr: 0x10"] Cache.empty).2 =
        .ok (Cache.empty.set "0x10" (.str "main")) ∧
      Cache.Extends Cache.empty (Cache.empty.set "0x10" (.str "main")) ∧
      ∀ line ∈ ["PC=0x10", "lr: 0x10"], ∀ cs ∈ (logAddrRegex Ucd.ascii).finditer line.data,
        ((Cache.empty.set "0x10" (.str "main")) ⟨cs.group "addr"⟩).isSome :=
  by
  refine ⟨rfl, ?h, parseLines_memo rfl ?h⟩
  rfl

end Cache

/-! ### The script, line by line -/

section Lines

variable {u : Ucd} {w : World} {elfFile addr2lineTool : String} (sym : String → Symbol)

variable (u) in
/-- What the script prints for a line, given the symbol of every address: nothing if
    `LOG_ADDR_REGEX` finds nothing in it, and otherwise its block, of the matches in order.
    A function of the line alone. -/
def lineBlock (line : String) : List Print :=
  let regMatches := (logAddrRegex u).finditer line.data
  if regMatches.isEmpty then []
  else block u line (regMatches.map fun cs =>
    infoLine u (Str.upper u ⟨cs.group "reg"⟩) ⟨cs.group "addr"⟩ (sym ⟨cs.group "addr"⟩))

theorem symbolizeMatches_uncached {ms : List Caps}
    (hsym : ∀ cs ∈ ms, symbolizeAddressUncached u w ⟨cs.group "addr"⟩ elfFile addr2lineTool =
      .ok (sym ⟨cs.group "addr"⟩)) :
    symbolizeMatches u (uncachedSymbolizer u w) elfFile addr2lineTool ms () =
      ([], .ok (ms.map fun cs =>
        infoLine u (Str.upper u ⟨cs.group "reg"⟩) ⟨cs.group "addr"⟩ (sym ⟨cs.group "addr"⟩), ())) := by
  induction ms with
  | nil => rfl
  | cons cs ms ih =>
    simp only [List.forall_mem_cons] at hsym
    simp only [symbolizeMatches, uncachedSymbolizer, hsym.1, Except.map, ih hsym.2, List.map_cons]

/-- The lines that go through before the rest: their blocks, then what the rest prints. -/
theorem parseLines_uncached_append {pre : List String} (rest : List String)
    (hsym : ∀ addr ∈ pre.flatMap (lineAddrs u),
      symbolizeAddressUncached u w addr elfFile addr2lineTool = .ok (sym addr)) :
    parseLines u (uncachedSymbolizer u w) elfFile addr2lineTool (pre ++ rest) () =
      Prod.map (pre.flatMap (lineBlock u sym) ++ ·) id
        (parseLines u (uncachedSymbolizer u w) elfFile addr2lineTool rest ()) := by
  rcases hrest : parseLines u (uncachedSymbolizer u w) elfFile addr2lineTool rest () with ⟨p, r⟩
  induction pre with
  | nil => exact hrest
  | cons line pre ih =>
    simp only [List.flatMap_cons, List.mem_append, or_imp, forall_and] at hsym
    have hm : symbolizeMatches u (uncachedSymbolizer u w) elfFile addr2lineTool
        ((logAddrRegex u).finditer line.data) () = _ :=
      symbolizeMatches_uncached sym fun cs hcs => hsym.1 _ (List.mem_map_of_mem _ hcs)
    rw [List.cons_append]
    simp only [parseLines, parseLogLine, hm, ih hsym.2, lineBlock, List.flatMap_cons,
      List.nil_append, Prod.map, id, List.append_assoc]

/-- With the ELF file present, and `addr2line` giving a symbol for every address of the
    log, the script prints, line after line, the block of every line that holds a register
    value, each a function of the line alone and of the symbols of its addresses, and
    returns: nothing it prints depends on the lines before. -/
theorem symbolizeLog_eq_flatMap {args : Args} {logFile : List String} (hx : w.pathExists args.elf)
    (hsym : ∀ addr ∈ logFile.flatMap (lineAddrs u),
      symbolizeAddressUncached u w addr args.elf args.addr2line = .ok (sym addr)) :
    symbolizeLog u w args logFile = (logFile.flatMap (lineBlock u sym), .ok ()) := by
  rw [symbolizeLog, ← main_refines u logFile symbolizeAddress_refines sound_empty]
  simp only [main, hx, Bool.not_true, Bool.false_eq_true, if_false]
  have h := parseLines_uncached_append sym [] hsym
  rw [List.append_nil] at h
  simp [h, parseLines, Except.map]

theorem symbolizeLog_eq_flatMap_pc :
    (⟨fun _ => true, fun _ => .ok "0x10\nmain\n"⟩ : World).pathExists "a.elf" ∧
      (∀ addr ∈ ["PC=0x10", "boot", "lr: 0x20"].flatMap (lineAddrs Ucd.ascii),
        symbolizeAddressUncached Ucd.ascii ⟨fun _ => true, fun _ => .ok "0x10\nmain\n"⟩ addr "a.elf"
          "addr2line" = .ok (.str "main")) ∧
      symbolizeLog Ucd.ascii ⟨fun _ => true, fun _ => .ok "0x10\nmain\n"⟩ ⟨"a.elf", "addr2line"⟩
          ["PC=0x10", "boot", "lr: 0x20"] =
        (["PC=0x10", "boot", "lr: 0x20"].flatMap (lineBlock Ucd.ascii fun _ => .str "main"), .ok ()) :=
  ⟨rfl, fun _ _ => rfl, symbolizeLog_eq_flatMap (fun _ => .str "main") rfl fun _ _ => rfl⟩

/-- How a line ends where `symbolize_address` raises `e`: on `FileNotFoundError` the loop
    of `parse_log_line` prints the error and calls `sys.exit(1)`; any other exception goes
    up. Nothing of the line's block is printed. -/
def lineError {α : Type} : Exc → List Print × Except Exc α
  | .fileNotFound e => ([.err ("Error: " ++ e)], .error (.systemExit 1))
  | e => ([], .error e)

/-- The loop over the matches, where the first address that fails is `a`: it ends as
    `lineError` says, whatever follows. -/
theorem symbolizeMatches_uncached_error {ms : List Caps} {as bs : List String} {a : String}
    {e : Exc} (hms : ms.map (fun cs => (⟨cs.group "addr"⟩ : String)) = as ++ a :: bs)
    (has : ∀ addr ∈ as, symbolizeAddressUncached u w addr elfFile addr2lineTool = .ok (sym addr))
    (ha : symbolizeAddressUncached u w a elfFile addr2lineTool = .error e) :
    symbolizeMatches u (uncachedSymbolizer u w) elfFile addr2lineTool ms () = lineError e := by
  induction ms generalizing as with
  | nil => simp at hms
  | cons cs ms ih =>
    cases as with
    | nil =>
      -- the first match is the one that fails
      obtain ⟨rfl, -⟩ := List.cons.inj hms
      simp only [symbolizeMatches, uncachedSymbolizer, ha, Except.map]
      cases e <;> rfl
    | cons a' as =>
      -- the first match goes through, and the rest of the loop fails
      obtain ⟨rfl, htail⟩ := List.cons.inj hms
      simp only [List.forall_mem_cons] at has
      simp only [symbolizeMatches, uncachedSymbolizer, has.1, Except.map, ih htail has.2]
      cases e <;> rfl

/-- Where `symbolize_address` first raises `e`, on an address `a` of the log, the script
    prints the blocks of the lines before it, and nothing of the block of its line: with
    `FileNotFoundError` it prints the error and exits with status 1, and any other
    exception ends it. -/
theorem symbolizeLog_of_error {args : Args} {pre post as bs : List String} {line a : String}
    {e : Exc} (hx : w.pathExists args.elf)
    (hsym : ∀ addr ∈ pre.flatMap (lineAddrs u) ++ as,
      symbolizeAddressUncached u w addr args.elf args.addr2line = .ok (sym addr))
    (hline : lineAddrs u line = as ++ a :: bs)
    (ha : symbolizeAddressUncached u w a args.elf args.addr2line = .error e) :
    symbolizeLog u w args (pre ++ line :: post) =
      Prod.map (pre.flatMap (lineBlock u sym) ++ ·) id (lineError e) := by
  simp only [List.mem_append, or_imp, forall_and] at hsym
  have hm := symbolizeMatches_uncached_error sym hline hsym.2 ha
  rw [symbolizeLog, ← main_refines u _ symbolizeAddress_refines sound_empty]
  simp only [main, hx, Bool.not_true, Bool.false_eq_true, if_false,
    parseLines_uncached_append sym _ hsym.1, parseLines, parseLogLine, hm]
  cases e <;> rfl

/-- `addr2line` is missing when asked for `0x20`, the second address of the second line:
    the script prints the block of the first line, then the error, and exits with status 1. -/
theorem symbolizeLog_of_error_notFound :
    (⟨fun _ => true, fun cmd => if "0x20" ∈ cmd then .notFound "addr2line" else .ok "0x10\nmain\n"⟩ :
        World).pathExists "a.elf" ∧
      (∀ addr ∈ ["PC=0x10"].flatMap (lineAddrs Ucd.ascii) ++ ["0x10"],
        symbolizeAddressUncached Ucd.ascii
          ⟨fun _ => true, fun cmd => if "0x20" ∈ cmd then .notFound "addr2line" else .ok "0x10\nmain\n"⟩
          addr "a.elf" "addr2line" = .ok (.str "main")) ∧
      lineAddrs Ucd.ascii "sp=0x10 lr=0x20" = ["0x10"] ++ ["0x20"] ∧
      symbolizeAddressUncached Ucd.ascii
          ⟨fun _ => true, fun cmd => if "0x20" ∈ cmd then .notFound "addr2line" else .ok "0x10\nmain\n"⟩
          "0x20" "a.elf" "addr2line" = .error (.fileNotFound "addr2line") ∧
      symbolizeLog Ucd.ascii
          ⟨fun _ => true, fun cmd => if "0x20" ∈ cmd then .notFound "addr2line" else .ok "0x10\nmain\n"⟩
          ⟨"a.elf", "addr2line"⟩ (["PC=0x10"] ++ ["sp=0x10 lr=0x20", "pc=0x30"]) =
        Prod.map (["PC=0x10"].flatMap (lineBlock Ucd.ascii fun _ => .str "main") ++ ·) id
          (lineError (.fileNotFound "addr2line")) := by
  have hsym : ∀ addr ∈ ["PC=0x10"].flatMap (lineAddrs Ucd.ascii) ++ ["0x10"],
      symbolizeAddressUncached Ucd.ascii
        ⟨fun _ => true, fun cmd => if "0x20" ∈ cmd then .notFound "addr2line" else .ok "0x10\nmain\n"⟩
        addr "a.elf" "addr2line" = .ok (.str "main") := by
    rw [show ["PC=0x10"].flatMap (lineAddrs Ucd.ascii) ++ ["0x10"] = ["0x10", "0x10"] by decide]
    rintro _ (_ | ⟨_, _ | ⟨_, ⟨⟩⟩⟩) <;> rfl
  have hline : lineAddrs Ucd.ascii "sp=0x10 lr=0x20" = ["0x10"] ++ ["0x20"] := by decide
  exact ⟨rfl, hsym, hline, rfl, symbolizeLog_of_error (fun _ => .str "main") rfl hsym hline rfl⟩

end Lines

end ChromeEc.SymbolizeLog
