import ChromeEc.SymbolizeLog.Str

/-!
# Regular expressions

Python's `re` as far as `LOG_ADDR_REGEX` uses it: characters of a class, sequences,
alternatives, a greedy optional group, a greedy repetition of a character class, and
named groups. The engine of `re` (`_sre`) is a backtracking matcher: it tries the
alternatives in order and the longest repetitions first, and goes back to the next way
of matching where the rest of the pattern fails. `Re.m` is that matcher, written with
continuations: `r.m s cs k` matches `r` at the start of `s` and hands the rest of `s`
and the captures to `k`, and backtracks where `k` fails.

Its meaning is `Re.Derives`: `r` matches the whole of a string, capturing what its
groups match. The matcher is sound and complete for it:

* `m_sound`: what the matcher accepts, `r` derives, and `k` accepts what is left;
* `m_complete`: where `r` derives a prefix whose rest `k` accepts, the matcher succeeds
  (not always by that derivation: by the first one in the order of `_sre`);
* `matchAt_eq_none`: `r.match(s)` fails exactly when no prefix of `s` matches `r`.
-/

namespace ChromeEc.SymbolizeLog

/-- The captures of the named groups, the last capture first. -/
abbrev Caps := List (String × List Char)

/-- The regular expressions `LOG_ADDR_REGEX` is built of, as `re` compiles them. -/
inductive Re
  /-- One character of a class: a literal, `[...]`, `\d` or `\s`. -/
  | char (p : Char → Bool)
  /-- `r₁r₂`. -/
  | seq (r₁ r₂ : Re)
  /-- `r₁|r₂`, with `r₁` tried first. -/
  | alt (r₁ r₂ : Re)
  /-- `(?:r)?`, greedy: with `r` tried first. -/
  | opt (r : Re)
  /-- `[p]*`, greedy: the longest run tried first. -/
  | star (p : Char → Bool)
  /-- `(?P<name>r)`. -/
  | group (name : String) (r : Re)

theorem Option.isSome_orElse {α : Type} {a : Option α} {f : Unit → Option α} :
    (a.orElse f).isSome = (a.isSome || (f ()).isSome) := by
  cases a <;> simp [Option.orElse]

namespace Re

variable {α : Type}

/-- `[p]*` before the continuation `k`: the longest run of `p` first, then the shorter
    ones. -/
def starM (p : Char → Bool) : List Char → Caps → (List Char → Caps → Option α) → Option α
  | [], cs, k => k [] cs
  | c :: s, cs, k => if p c then (starM p s cs k).orElse fun _ => k (c :: s) cs else k (c :: s) cs

/-- The backtracking matcher of `_sre`: match `r` at the start of `s`, with the captures
    `cs`, and hand the rest of `s` and the captures to `k`; where `k` fails, go on with
    the next way of matching `r`. -/
def m : Re → List Char → Caps → (List Char → Caps → Option α) → Option α
  | char _, [], _, _ => none
  | char p, c :: s, cs, k => if p c then k s cs else none
  | seq r₁ r₂, s, cs, k => r₁.m s cs fun s' cs' => r₂.m s' cs' k
  | alt r₁ r₂, s, cs, k => (r₁.m s cs k).orElse fun _ => r₂.m s cs k
  | opt r, s, cs, k => (r.m s cs k).orElse fun _ => k s cs
  | star p, s, cs, k => starM p s cs k
  | group n r, s, cs, k => r.m s cs fun s' cs' => k s' ((n, s.take (s.length - s'.length)) :: cs')

/-- `pattern.match(s)`: the first match of `r` at the start of `s`, as the rest of `s` and
    the captures. -/
def matchAt (r : Re) (s : List Char) : Option (List Char × Caps) :=
  r.m s [] fun s' cs => some (s', cs)

/-- `r` matches the whole of `u`, turning the captures `cs` into `cs'`. -/
inductive Derives : Re → List Char → Caps → Caps → Prop
  | char {p c cs} : p c → Derives (char p) [c] cs cs
  | seq {r₁ r₂ u v cs cs₁ cs₂} : Derives r₁ u cs cs₁ → Derives r₂ v cs₁ cs₂ →
      Derives (seq r₁ r₂) (u ++ v) cs cs₂
  | altLeft {r₁ r₂ u cs cs'} : Derives r₁ u cs cs' → Derives (alt r₁ r₂) u cs cs'
  | altRight {r₁ r₂ u cs cs'} : Derives r₂ u cs cs' → Derives (alt r₁ r₂) u cs cs'
  | optSome {r u cs cs'} : Derives r u cs cs' → Derives (opt r) u cs cs'
  | optNone {r cs} : Derives (opt r) [] cs cs
  | starNil {p cs} : Derives (star p) [] cs cs
  | starCons {p c u cs} : p c → Derives (star p) u cs cs → Derives (star p) (c :: u) cs cs
  | group {n r u cs cs'} : Derives r u cs cs' → Derives (group n r) u cs ((n, u) :: cs')

/-! ### What each construct derives -/

section Derives

variable {p : Char → Bool} {r r₁ r₂ : Re} {n : String} {w : List Char} {cs cs' : Caps}

@[simp] theorem derives_char_iff : (char p).Derives w cs cs' ↔ ∃ c, w = [c] ∧ p c ∧ cs' = cs := by
  constructor
  · rintro ⟨hp⟩
    exact ⟨_, rfl, hp, rfl⟩
  · rintro ⟨c, rfl, hp, rfl⟩
    exact .char hp

@[simp] theorem derives_seq_iff :
    (seq r₁ r₂).Derives w cs cs' ↔ ∃ u v cs₁, w = u ++ v ∧ r₁.Derives u cs cs₁ ∧ r₂.Derives v cs₁ cs' := by
  constructor
  · intro h
    cases h with
    | seq h₁ h₂ => exact ⟨_, _, _, rfl, h₁, h₂⟩
  · rintro ⟨u, v, cs₁, rfl, h₁, h₂⟩
    exact .seq h₁ h₂

/-- A character, then `r`: the shape of every alternative of a register name. -/
theorem derives_char_seq_iff :
    (seq (char p) r).Derives w cs cs' ↔ ∃ c v, w = c :: v ∧ p c ∧ r.Derives v cs cs' := by
  simp only [derives_seq_iff, derives_char_iff]
  constructor
  · rintro ⟨_, v, _, rfl, ⟨c, rfl, hp, rfl⟩, h⟩
    exact ⟨c, v, rfl, hp, h⟩
  · rintro ⟨c, v, rfl, hp, h⟩
    exact ⟨[c], v, cs, rfl, ⟨c, rfl, hp, rfl⟩, h⟩

@[simp] theorem derives_alt_iff : (alt r₁ r₂).Derives w cs cs' ↔ r₁.Derives w cs cs' ∨ r₂.Derives w cs cs' := by
  constructor
  · intro h
    cases h with
    | altLeft h => exact .inl h
    | altRight h => exact .inr h
  · rintro (h | h)
    exacts [.altLeft h, .altRight h]

@[simp] theorem derives_opt_iff : (opt r).Derives w cs cs' ↔ r.Derives w cs cs' ∨ w = [] ∧ cs' = cs := by
  constructor
  · intro h
    cases h with
    | optSome h => exact .inl h
    | optNone => exact .inr ⟨rfl, rfl⟩
  · rintro (h | ⟨rfl, rfl⟩)
    exacts [.optSome h, .optNone]

@[simp] theorem derives_star_iff : (star p).Derives w cs cs' ↔ cs' = cs ∧ ∀ c ∈ w, p c := by
  constructor
  · intro h
    generalize hr : star p = r at h
    induction h <;> cases hr
    · exact ⟨rfl, by simp⟩
    · rename_i hp _ ih
      exact ⟨rfl, by simpa [hp] using (ih rfl).2⟩
  · rintro ⟨rfl, hw⟩
    induction w with
    | nil => exact .starNil
    | cons c w ih => exact .starCons (hw c (by simp)) (ih fun d hd => hw d (by simp [hd]))

@[simp] theorem derives_group_iff :
    (group n r).Derives w cs cs' ↔ ∃ cs₁, r.Derives w cs cs₁ ∧ cs' = (n, w) :: cs₁ := by
  constructor
  · intro h
    cases h with
    | group h => exact ⟨_, h, rfl⟩
  · rintro ⟨cs₁, h, rfl⟩
    exact .group h

end Derives

/-! ### The matcher -/

theorem starM_sound {p : Char → Bool} {k : List Char → Caps → Option α} {x : α} {cs : Caps} :
    ∀ {s}, starM p s cs k = some x → ∃ u v, s = u ++ v ∧ (star p).Derives u cs cs ∧ k v cs = some x
  | [], h => ⟨[], [], rfl, .starNil, h⟩
  | c :: s, h => by
    simp only [starM] at h
    split at h
    · rcases (Option.orElse_eq_some' _ _ _).1 h with h | ⟨-, h⟩
      · -- the longer run: one more character of the class before it
        obtain ⟨u, v, rfl, hu, hv⟩ := starM_sound h
        exact ⟨c :: u, v, rfl, .starCons ‹_› hu, hv⟩
      · exact ⟨[], c :: s, rfl, .starNil, h⟩
    · exact ⟨[], c :: s, rfl, .starNil, h⟩

/-- The matcher is sound: what it accepts, `r` derives, and `k` accepts what is left. -/
theorem m_sound {r : Re} {s : List Char} {cs : Caps} {k : List Char → Caps → Option α} {x : α}
    (h : r.m s cs k = some x) : ∃ u v cs', s = u ++ v ∧ r.Derives u cs cs' ∧ k v cs' = some x := by
  induction r generalizing s cs k with
  | char p =>
    match s, h with
    | c :: s, h =>
      simp only [m] at h
      split at h
      · exact ⟨[c], s, cs, rfl, .char ‹_›, h⟩
      · cases h
  | seq r₁ r₂ ih₁ ih₂ =>
    obtain ⟨u, v, cs₁, rfl, hu, hv⟩ := ih₁ h
    obtain ⟨u', v', cs₂, rfl, hu', hv'⟩ := ih₂ hv
    exact ⟨u ++ u', v', cs₂, (List.append_assoc _ _ _).symm, .seq hu hu', hv'⟩
  | alt r₁ r₂ ih₁ ih₂ =>
    rcases (Option.orElse_eq_some' _ _ _).1 h with h | ⟨-, h⟩
    · obtain ⟨u, v, cs', rfl, hu, hv⟩ := ih₁ h
      exact ⟨u, v, cs', rfl, .altLeft hu, hv⟩
    · obtain ⟨u, v, cs', rfl, hu, hv⟩ := ih₂ h
      exact ⟨u, v, cs', rfl, .altRight hu, hv⟩
  | opt r ih =>
    rcases (Option.orElse_eq_some' _ _ _).1 h with h | ⟨-, h⟩
    · obtain ⟨u, v, cs', rfl, hu, hv⟩ := ih h
      exact ⟨u, v, cs', rfl, .optSome hu, hv⟩
    · exact ⟨[], s, cs, rfl, .optNone, h⟩
  | star p =>
    obtain ⟨u, v, rfl, hu, hv⟩ := starM_sound h
    exact ⟨u, v, cs, rfl, hu, hv⟩
  | group n r ih =>
    obtain ⟨u, v, cs', rfl, hu, hv⟩ := ih h
    refine ⟨u, v, _, rfl, .group hu, ?_⟩
    simpa using hv

theorem starM_isSome {p : Char → Bool} {k : List Char → Caps → Option α} {cs : Caps} {s : List Char}
    (hk : (k s cs).isSome) : (starM p s cs k).isSome := by
  cases s with
  | nil => exact hk
  | cons c s =>
    simp only [starM]
    split
    · simp [Option.isSome_orElse, hk]
    · exact hk

/-- The matcher is complete: where `r` derives `u` and `k` accepts the rest `v`, it
    succeeds on `u ++ v`. -/
theorem m_complete {r : Re} {u v : List Char} {cs cs' : Caps} {k : List Char → Caps → Option α}
    (h : r.Derives u cs cs') (hk : (k v cs').isSome) : (r.m (u ++ v) cs k).isSome := by
  induction h generalizing v k with
  | char hp => simpa [m, hp] using hk
  | seq _ _ ih₁ ih₂ => simpa [m] using ih₁ (ih₂ hk)
  | altLeft _ ih | altRight _ ih | optSome _ ih => simp [m, Option.isSome_orElse, ih hk]
  | optNone => simp [m, Option.isSome_orElse, hk]
  | starNil => exact starM_isSome hk
  | starCons hp _ ih =>
    have h := ih hk
    simp only [m] at h ⊢
    simp [starM, hp, Option.isSome_orElse, h]
  | @group n _ u _ cs' _ ih =>
    have hk' : ((fun s' cs' => k s' ((n, (u ++ v).take ((u ++ v).length - s'.length)) :: cs'))
      v cs').isSome := by simpa using hk
    exact ih hk'

theorem matchAt_sound {r : Re} {s v : List Char} {cs : Caps} (h : r.matchAt s = some (v, cs)) :
    ∃ u, s = u ++ v ∧ r.Derives u [] cs := by
  obtain ⟨u, v', cs', rfl, hu, hv⟩ := m_sound h
  cases hv
  exact ⟨u, rfl, hu⟩

/-- `r.match(s)` fails exactly when no prefix of `s` matches `r`. -/
theorem matchAt_eq_none {r : Re} {s : List Char} :
    r.matchAt s = none ↔ ∀ u v cs, s = u ++ v → ¬ r.Derives u [] cs := by
  constructor
  · rintro h u v cs rfl hu
    have hm : (r.m (u ++ v) [] fun s' cs => some (s', cs)).isSome := m_complete hu rfl
    simp only [matchAt] at h
    simp [h] at hm
  · intro h
    cases hm : r.matchAt s with
    | none => rfl
    | some x =>
      obtain ⟨v, cs⟩ := x
      obtain ⟨u, hs, hu⟩ := matchAt_sound hm
      exact absurd hu (h u v cs hs)

/-! ### What the matcher hands on -/

/-- Under a continuation that accepts every rest, a repetition takes the longest run:
    `_sre` tries it first, and nothing makes it go back. -/
theorem starM_of_total {p : Char → Bool} {k : List Char → Caps → Option α}
    (hk : ∀ s cs, (k s cs).isSome) (s : List Char) (cs : Caps) :
    starM p s cs k = k (s.dropWhile p) cs := by
  induction s with
  | nil => rfl
  | cons c s ih =>
    by_cases hc : p c
    · obtain ⟨x, hx⟩ := Option.isSome_iff_exists.1 (hk (s.dropWhile p) cs)
      simp [starM, hc, ih, hx, Option.orElse]
    · simp [starM, hc]

/-- What a sequence hands on, its second part hands on, from where the first one ends. -/
theorem m_seq_eq_some {r₁ r₂ : Re} {s : List Char} {cs : Caps} {k : List Char → Caps → Option α}
    {x : α} (h : (seq r₁ r₂).m s cs k = some x) : ∃ v cs₁, r₂.m v cs₁ k = some x :=
  have h' : r₁.m s cs (fun s' cs' => r₂.m s' cs' k) = some x := h
  have ⟨_, v, cs₁, _, _, hv⟩ := m_sound h'
  ⟨v, cs₁, hv⟩

/-! ### `finditer` -/

/-- The search of `finditer`, `skip` characters past the start of `s`: at each position,
    the first match there, and the next search from its end; where no match starts, the
    next position. An empty match, which `LOG_ADDR_REGEX` has none of, moves the search
    on by one position. -/
def scan (r : Re) : Nat → List Char → List Caps
  | _, [] => []
  | n + 1, _ :: s => scan r n s
  | 0, c :: s =>
    match r.matchAt (c :: s) with
    | some (rest, cs) => cs :: scan r (s.length - rest.length) s
    | none => scan r 0 s

/-- `pattern.finditer(s)`: the captures of the matches of `r` in `s`, left to right. -/
def finditer (r : Re) (s : List Char) : List Caps :=
  r.scan 0 s


variable {r : Re} {c : Char} {s rest : List Char} {cs : Caps}

theorem scan_eq_scan_drop (r : Re) : ∀ (n : Nat) (s : List Char), r.scan n s = r.scan 0 (s.drop n)
  | 0, _ => rfl
  | _ + 1, [] => rfl
  | n + 1, _ :: s => by simp [scan, scan_eq_scan_drop r n s]

theorem finditer_cons_of_none (h : r.matchAt (c :: s) = none) :
    r.finditer (c :: s) = r.finditer s := by
  simp [finditer, scan, h]

/-- After a match that is not empty, the search goes on from its end. -/
theorem finditer_of_matchAt (hr : ∀ cs, ¬ r.Derives [] [] cs) (h : r.matchAt s = some (rest, cs)) :
    r.finditer s = cs :: r.finditer rest := by
  obtain ⟨_ | ⟨c, w⟩, rfl, hw⟩ := matchAt_sound h
  · exact absurd hw (hr cs)
  · rw [List.cons_append] at h
    simp [finditer, scan, h, scan_eq_scan_drop r _ (w ++ rest)]

/-- The matches `finditer` reads off `s`, as a judgement: from left to right, past the
    positions where no match of `r` starts, a match of `r` at the next one, and the
    search on from its end. -/
inductive Finds (r : Re) : List Char → List Caps → Prop
  | nil : Finds r [] []
  | skip {c s ms} : (∀ w v cs, c :: s = w ++ v → ¬ r.Derives w [] cs) → Finds r s ms →
      Finds r (c :: s) ms
  | found {w rest cs ms} : r.Derives w [] cs → Finds r rest ms → Finds r (w ++ rest) (cs :: ms)

/-- A match that is not empty leaves less than it was given. -/
theorem length_lt_of_matchAt (hr : ∀ cs, ¬ r.Derives [] [] cs) (h : r.matchAt s = some (rest, cs)) :
    rest.length < s.length := by
  obtain ⟨_ | ⟨d, w⟩, rfl, hw⟩ := matchAt_sound h
  · exact absurd hw (hr cs)
  · simp only [List.cons_append, List.length_cons, List.length_append]
    omega

/-- `finditer` finds its matches from left to right, each at the first position where
    one starts, for a pattern that matches no empty string. -/
theorem finditer_finds (hr : ∀ cs, ¬ r.Derives [] [] cs) : ∀ s, Finds r s (r.finditer s)
  | [] => .nil
  | c :: s => by
    cases h : r.matchAt (c :: s) with
    | none =>
      rw [finditer_cons_of_none h]
      exact .skip (matchAt_eq_none.1 h) (finditer_finds hr s)
    | some x =>
      obtain ⟨rest, cs⟩ := x
      obtain ⟨w, hs, hw⟩ := matchAt_sound h
      have := length_lt_of_matchAt hr h
      rw [finditer_of_matchAt hr h, hs]
      exact .found hw (finditer_finds hr rest)
termination_by s => s.length

/-- Every match `finditer` returns is the one `r.match` finds at some position of `s`. -/
theorem mem_finditer (hr : ∀ cs, ¬ r.Derives [] [] cs) : ∀ s, cs ∈ r.finditer s →
    ∃ pre suf rest, s = pre ++ suf ∧ r.matchAt suf = some (rest, cs)
  | [], h => by simp [finditer, scan] at h
  | c :: s, h => by
    cases hm : r.matchAt (c :: s) with
    | none =>
      rw [finditer_cons_of_none hm] at h
      obtain ⟨pre, suf, rest, rfl, hsuf⟩ := mem_finditer hr s h
      exact ⟨c :: pre, suf, rest, rfl, hsuf⟩
    | some x =>
      obtain ⟨rest, cs'⟩ := x
      rw [finditer_of_matchAt hr hm] at h
      rcases List.mem_cons.1 h with rfl | h
      · exact ⟨[], c :: s, rest, rfl, hm⟩
      · obtain ⟨w, hs, -⟩ := matchAt_sound hm
        have := length_lt_of_matchAt hr hm
        obtain ⟨pre, suf, rest', rfl, hsuf⟩ := mem_finditer hr rest h
        exact ⟨w ++ pre, suf, rest', by rw [hs, List.append_assoc], hsuf⟩
termination_by s => s.length

/-- No match is skipped: where one starts in `s`, it starts inside a match that `finditer`
    returns, found at or before it by `r.match`, after which the search goes on. -/
theorem finditer_complete (hr : ∀ cs, ¬ r.Derives [] [] cs) {w post : List Char} {cs : Caps}
    (hw : r.Derives w [] cs) : ∀ s pre, s = pre ++ w ++ post →
      ∃ ms₁ pre₁ w₁ post₁ cs₁, r.finditer s = ms₁ ++ cs₁ :: r.finditer post₁ ∧
        s = pre₁ ++ w₁ ++ post₁ ∧ r.matchAt (w₁ ++ post₁) = some (post₁, cs₁) ∧
        pre₁.length ≤ pre.length ∧ pre.length < pre₁.length + w₁.length
  | [], pre, hs => by
    obtain ⟨-, rfl, -⟩ : pre = [] ∧ w = [] ∧ post = [] := by simpa using hs.symm
    exact absurd hw (hr cs)
  | c :: s, pre, hs => by
    cases hm : r.matchAt (c :: s) with
    | none =>
      -- no match starts at `c`, so `w` starts after it
      obtain _ | ⟨_, pre⟩ := pre
      · exact absurd hw (matchAt_eq_none.1 hm w post cs (by simpa using hs))
      simp only [List.cons_append, List.cons.injEq] at hs
      obtain ⟨rfl, hs⟩ := hs
      obtain ⟨ms₁, pre₁, w₁, post₁, cs₁, hf, rfl, hm₁, hle, hlt⟩ :=
        finditer_complete hr hw s pre hs
      refine ⟨ms₁, c :: pre₁, w₁, post₁, cs₁, by rw [finditer_cons_of_none hm, hf], rfl, hm₁,
        ?_, ?_⟩ <;> simp only [List.length_cons] <;> omega
    | some x =>
      obtain ⟨rest, cs₀⟩ := x
      obtain ⟨w₀, hs₀, -⟩ := matchAt_sound hm
      by_cases hlt : pre.length < w₀.length
      · -- `w` starts inside the match found at `c`
        exact ⟨[], [], w₀, rest, cs₀, finditer_of_matchAt hr hm, hs₀, hs₀ ▸ hm, Nat.zero_le _,
          by simpa using hlt⟩
      · -- the match found at `c` ends before `w` starts
        obtain ⟨pre', rfl⟩ : w₀ <+: pre := List.prefix_of_prefix_length_le ⟨rest, hs₀.symm⟩
          ⟨w ++ post, by rw [hs, List.append_assoc]⟩ (Nat.le_of_not_lt hlt)
        have hrest : rest = pre' ++ w ++ post :=
          List.append_cancel_left (hs₀.symm.trans (by rw [hs]; simp only [List.append_assoc]))
        have := length_lt_of_matchAt hr hm
        obtain ⟨ms₁, pre₁, w₁, post₁, cs₁, hf, rfl, hm₁, hle, hlt⟩ :=
          finditer_complete hr hw rest pre' hrest
        refine ⟨cs₀ :: ms₁, w₀ ++ pre₁, w₁, post₁, cs₁, ?_, ?_, hm₁, ?_, ?_⟩
        · rw [finditer_of_matchAt hr hm, hf, List.cons_append]
        · rw [hs₀, List.append_assoc, List.append_assoc, List.append_assoc]
        all_goals simp only [List.length_append]; omega
termination_by s => s.length

namespace Finds

variable {ms : List Caps}

/-- Every match found is a match of `r` somewhere in `s`. -/
theorem sound (h : Finds r s ms) (hcs : cs ∈ ms) :
    ∃ pre w post, s = pre ++ w ++ post ∧ r.Derives w [] cs := by
  induction h with
  | nil => cases hcs
  | skip _ _ ih =>
    obtain ⟨pre, w, post, rfl, hw⟩ := ih hcs
    exact ⟨_ :: pre, w, post, rfl, hw⟩
  | @found w _ _ _ hw _ ih =>
    rcases List.mem_cons.1 hcs with rfl | hcs
    · exact ⟨[], w, _, rfl, hw⟩
    · obtain ⟨pre, w', post, rfl, hw'⟩ := ih hcs
      exact ⟨w ++ pre, w', post, by simp, hw'⟩

/-- Where nothing is found, no match of `r` starts anywhere in `s`. -/
theorem not_derives_of_nil (hr : ∀ cs, ¬ r.Derives [] [] cs) (h : Finds r s []) :
    ∀ pre w post cs, s = pre ++ w ++ post → ¬ r.Derives w [] cs := by
  generalize hms : ([] : List Caps) = ms at h
  induction h with
  | nil =>
    intro pre w post cs hs
    obtain ⟨-, rfl, -⟩ : pre = [] ∧ w = [] ∧ post = [] := by simpa using hs.symm
    exact hr cs
  | skip hc _ ih =>
    rintro (_ | ⟨_, pre⟩) w post cs hs
    · exact hc w post cs hs
    · exact ih hms pre w post cs (List.cons.inj hs).2
  | found => cases hms

/-- `finditer` finds nothing exactly where no match of `r` starts anywhere in `s`. -/
theorem eq_nil_iff (hr : ∀ cs, ¬ r.Derives [] [] cs) (h : Finds r s ms) :
    ms = [] ↔ ∀ pre w post cs, s = pre ++ w ++ post → ¬ r.Derives w [] cs := by
  constructor
  · rintro rfl
    exact h.not_derives_of_nil hr
  · intro hs
    cases ms with
    | nil => rfl
    | cons cs ms =>
      obtain ⟨pre, w, post, hs', hw⟩ := h.sound (List.mem_cons_self cs ms)
      exact absurd hw (hs pre w post cs hs')

end Finds

end Re

end ChromeEc.SymbolizeLog
