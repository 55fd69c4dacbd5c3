import Mathlib.Data.List.Basic
import Mathlib.Data.List.Nodup
import Mathlib.Logic.Function.Basic

/-!
# The registry of Zephyr modules

`zephyr/zmake/zmake/modules.py`: where zmake finds the Zephyr modules of a build, and how
it hands them to the build.

* `knownModules` (`known_modules`): the registry, a name and a locator for each module;
* `locateFromCheckout`, `locateFromDirectory`: the modules found in a ChromiumOS checkout,
  or in a directory, both by the loop `collect` over the registry;
* `setupModuleSymlinks`: a symbolic link to every module in the output directory, and the
  CMake definition `ZEPHYR_MODULES` that lists the links;
* `defaultProjectsDirs`: where zmake looks for projects.

The file system is a state `φ` that the functions read and change through `Fs`. What the
script needs of `util.update_symlink`, whose code is not part of this file, are two
assumptions: the directory a link is made in resolves as before (`Fs.ResolveLaw`), and the
link leads to its target, with the other entries of its directory left alone
(`Fs.LinkLaw`). A path is joined with plain names only (`IsPlainName`), as `pathlib` takes
them for one component each. The results:

* a module is found exactly when it is in the registry and its path is there
  (`locateFromCheckout_get?`, `locateFromDirectory_get?`), and the modules found are in
  the registry's order (`collect_keys`);
* with `src/platform/ec` checked out, projects are looked for in its `zephyr/program`
  (`defaultProjectsDirs_locateFromCheckout`);
* no link overwrites another: afterwards the link of every module leads to it, where every
  name is plain (`setupModuleSymlinks_readlink`);
* CMake, splitting `ZEPHYR_MODULES` at `;`, gets back the link of every module found in a
  checkout, in the registry's order (`zephyrModules_locateFromCheckout`).
-/

namespace ChromeEc.Zmake

/-! ### Paths and `dict`s -/

/-- A `pathlib.PurePosixPath`: whether it starts at the root, and its components. -/
structure Path where
  /-- It starts at `/`. -/
  absolute : Bool
  /-- Its components. -/
  parts : List String
  deriving DecidableEq

/-- A name that `pathlib` takes for one component: not empty, not `.` or `..`, and with no
    `/`. It splits another name at its `/`s, and drops the empty and `.` components. -/
def IsPlainName (name : String) : Prop :=
  name ≠ "" ∧ name ≠ "." ∧ name ≠ ".." ∧ '/' ∉ name.data

instance : DecidablePred IsPlainName := fun _ => inferInstanceAs (Decidable (_ ∧ _))

namespace Path

/-- `p / name`, for a plain `name` (`IsPlainName`), which it appends as one component. Every
    literal `modules.py` appends is one, and so is every key of `known_modules`; the results
    about the names of a `dict` the caller gives assume theirs are. -/
instance : HDiv Path String Path := ⟨fun p name => ⟨p.absolute, p.parts ++ [name]⟩⟩

@[simp] theorem parts_div (p : Path) (name : String) : (p / name).parts = p.parts ++ [name] :=
  rfl

/-- Two paths in one directory are the same only with the same name. -/
@[simp] theorem div_inj {p : Path} {a b : String} : p / a = p / b ↔ a = b := by
  show Path.mk _ _ = Path.mk _ _ ↔ _
  simp

/-- `str(p)`. -/
def str (p : Path) : String :=
  if p.absolute then "/" ++ "/".intercalate p.parts
  else if p.parts.isEmpty then "." else "/".intercalate p.parts

end Path

theorem intercalate_go_data (sep acc : String) (l : List String) :
    (String.intercalate.go acc sep l).data =
      acc.data ++ (l.map fun a => sep.data ++ a.data).flatten := by
  induction l generalizing acc with
  | nil => simp [String.intercalate.go]
  | cons a l ih => simp [String.intercalate.go, ih]

theorem intercalate_cons (sep x : List Char) (xs : List (List Char)) :
    sep.intercalate (x :: xs) = x ++ (xs.map (sep ++ ·)).flatten := by
  induction xs generalizing x with
  | nil => simp [List.intercalate]
  | cons y ys ih => simp_all [List.intercalate]

/-- `sep.join(l)`, on the characters: the pieces of `l` with `sep` between them. -/
theorem intercalate_data (sep : String) (l : List String) :
    (sep.intercalate l).data = sep.data.intercalate (l.map String.data) := by
  cases l with
  | nil => rfl
  | cons a l => simp [String.intercalate, intercalate_go_data, intercalate_cons, Function.comp_def]

theorem not_mem_intercalate {c : Char} {sep : List Char} {ls : List (List Char)} (hsep : c ∉ sep)
    (hls : ∀ l ∈ ls, c ∉ l) : c ∉ sep.intercalate ls := by
  cases ls with
  | nil => simp [List.intercalate]
  | cons x xs => simp_all [intercalate_cons, List.mem_flatten]

/-- A path has a `;` in its `str` only if one of its components has. -/
theorem semicolon_not_mem_str {p : Path} (h : ∀ c ∈ p.parts, ';' ∉ c.data) : ';' ∉ p.str.data := by
  have hp : ';' ∉ ("/".intercalate p.parts).data := by
    rw [intercalate_data]
    exact not_mem_intercalate (by decide) (by simpa using h)
  unfold Path.str
  split_ifs <;> simp_all

/-- A list of CMake is its items joined by `;`: splitting `";".join(map(str, links))` at
    `;` gives back the links, if no component of theirs holds a `;`. -/
theorem splitOn_intercalate_str {links : List Path} (hne : links ≠ [])
    (h : ∀ p ∈ links, ∀ c ∈ p.parts, ';' ∉ c.data) :
    ((";".intercalate (links.map Path.str)).data.splitOn ';').map String.mk =
      links.map Path.str := by
  rw [intercalate_data, show (";" : String).data = [';'] from rfl, List.splitOn_intercalate]
  · simp [Function.comp_def]
  · simpa using fun p hp => semicolon_not_mem_str (h p hp)
  · simpa using hne

/-- A Python `dict` with `str` keys: its items in the order they were put in, no key
    twice. -/
structure Dict (α : Type) where
  /-- `d.items()`. -/
  items : List (String × α)
  /-- A key is in a `dict` once. -/
  nodup : (items.map Prod.fst).Nodup

namespace Dict

variable {α : Type}

/-- `{}`. -/
def empty : Dict α := ⟨[], List.nodup_nil⟩

/-- `d[k]`, where `k in d`; `none` where it is not. -/
def get? (d : Dict α) (k : String) : Option α := d.items.lookup k

/-- The items of `d` after `d[k] = v`: a key already there keeps its place and takes the
    new value, a new one goes last. -/
def setItems (k : String) (v : α) : List (String × α) → List (String × α)
  | [] => [(k, v)]
  | (k', v') :: items => if k' = k then (k, v) :: items else (k', v') :: setItems k v items

theorem map_fst_setItems (k : String) (v : α) (items : List (String × α)) :
    (setItems k v items).map Prod.fst =
      if k ∈ items.map Prod.fst then items.map Prod.fst else items.map Prod.fst ++ [k] := by
  induction items with
  | nil => rfl
  | cons kv items ih =>
    obtain ⟨k', v'⟩ := kv
    by_cases h : k' = k
    · simp [setItems, h]
    · simp only [setItems, h, if_false, List.map_cons, ih, List.mem_cons, Ne.symm h, false_or]
      split_ifs <;> rfl

theorem nodup_setItems (k : String) (v : α) {items : List (String × α)}
    (h : (items.map Prod.fst).Nodup) : ((setItems k v items).map Prod.fst).Nodup := by
  rw [map_fst_setItems]
  split_ifs with hk
  · exact h
  · exact h.append (List.nodup_singleton k) (by simpa using hk)

/-- `d[k] = v`. -/
def set (d : Dict α) (k : String) (v : α) : Dict α :=
  ⟨setItems k v d.items, nodup_setItems k v d.nodup⟩

theorem setItems_of_not_mem {k : String} {v : α} {items : List (String × α)}
    (h : k ∉ items.map Prod.fst) : setItems k v items = items ++ [(k, v)] := by
  induction items with
  | nil => rfl
  | cons kv items ih =>
    simp only [List.map_cons, List.mem_cons, not_or] at h
    simp [setItems, Ne.symm h.1, ih h.2]

end Dict

/-! ### The registry -/

/-- `third_party_module(name, checkout)`. -/
def thirdPartyModule (name : String) (checkout : Path) : Path :=
  checkout / "src" / "third_party" / "zephyr" / name

/-- `chre_module(name, checkout)`, which reads `os.environ`: the internal checkout of CHRE
    where `PLATFORM_EC_USE_INTERNAL_CHRE` is set. -/
def chreModule (environ : String → Option String) (name : String) (checkout : Path) : Path :=
  let name := if (environ "PLATFORM_EC_USE_INTERNAL_CHRE").isSome then name ++ "_internal" else name
  checkout / "src" / "third_party" / "android" / "platform" / "system" / name

/-- A locator of `known_modules`: from `os.environ`, the module's name and the checkout, the
    module's path. -/
abbrev Locator := (String → Option String) → String → Path → Path

/-- `known_modules`. -/
def knownModules : Dict Locator where
  items :=
    [("boringssl", fun _ name checkout => checkout / "src" / "third_party" / name),
     ("hal_stm32", fun _ => thirdPartyModule),
     ("chre", chreModule),
     ("cmsis", fun _ => thirdPartyModule),
     ("cmsis_6", fun _ => thirdPartyModule),
     ("ec", fun _ _ checkout => checkout / "src" / "platform" / "ec"),
     ("egis", fun _ _ checkout => checkout / "src" / "platform" / "fingerprint" / "egis"),
     ("elan", fun _ _ checkout => checkout / "src" / "platform" / "fingerprint" / "elan"),
     ("fpc", fun _ _ checkout => checkout / "src" / "platform" / "fingerprint" / "fpc"),
     ("nanopb", fun _ => thirdPartyModule),
     ("pigweed", fun _ name checkout => checkout / "src" / "third_party" / name),
     ("hal_intel_public", fun _ => thirdPartyModule),
     ("picolibc", fun _ => thirdPartyModule),
     ("intel_module_private", fun _ => thirdPartyModule)]
  nodup := by decide

/-- No name in the registry holds a `;`. -/
theorem semicolon_not_mem_knownModules : ∀ m ∈ knownModules.items, ';' ∉ m.1.data := by decide

/-! ### Finding the modules -/

/-- The file system, as `modules.py` reaches it through `pathlib` and `util`, over its
    states `φ`. -/
structure Fs (φ : Type) where
  /-- `p.exists()`. -/
  pathExists : φ → Path → Bool
  /-- `p.is_file()`. -/
  isFile : φ → Path → Bool
  /-- `p.resolve()`: the absolute path, with the symbolic links followed. -/
  resolve : φ → Path → Path
  /-- `p.mkdir(parents=True)`. -/
  mkdir : Path → φ → φ
  /-- `util.update_symlink(target, link)`. -/
  updateSymlink : Path → Path → φ → φ
  /-- Where the symbolic link at a path leads (`os.readlink`), if it is one: `modules.py`
      never reads it, `Fs.LinkLaw` says with it what `updateSymlink` does. -/
  readlink : φ → Path → Option Path

variable {φ : Type}

/-- One round of the loop over the registry that `locate_from_checkout` and
    `locate_from_directory` share: `result[name] = path` where `found` gives a path for
    the module. -/
def collectStep (found : String → Locator → Option Path) (result : Dict Path)
    (m : String × Locator) : Dict Path :=
  match found m.1 m.2 with
  | some path => result.set m.1 path
  | none => result

/-- `result = {}`, then the loop over `known_modules`, and `return result`. -/
def collect (found : String → Locator → Option Path) : Dict Path :=
  knownModules.items.foldl (collectStep found) Dict.empty

/-- `locate_from_checkout(checkout_dir)`. -/
def locateFromCheckout (fs : Fs φ) (environ : String → Option String) (checkoutDir : Path)
    (s : φ) : Dict Path :=
  collect fun name locator =>
    let path := locator environ name checkoutDir
    if fs.pathExists s path then some path else none

/-- `locate_from_directory(directory)`. -/
def locateFromDirectory (fs : Fs φ) (directory : Path) (s : φ) : Dict Path :=
  collect fun name _ =>
    let modpath := fs.resolve s (directory / name)
    if fs.isFile s (modpath / "zephyr" / "module.yml") then some modpath else none

/-- `default_projects_dirs(modules)`. -/
def defaultProjectsDirs (modules : Dict Path) : List Path :=
  match modules.get? "ec" with
  | some ec => [ec / "zephyr" / "program"]
  | none => []

section Collect

variable (found : String → Locator → Option Path)

theorem collectStep_items (d : Dict Path) (m : String × Locator) (hm : m.1 ∉ d.items.map Prod.fst) :
    (collectStep found d m).items = d.items ++ ((found m.1 m.2).map (m.1, ·)).toList := by
  unfold collectStep
  cases found m.1 m.2 <;> simp [Dict.set, Dict.setItems_of_not_mem hm]

theorem foldl_collectStep_items (l : List (String × Locator)) (d : Dict Path)
    (hl : (l.map Prod.fst).Nodup) (hd : ∀ k ∈ l.map Prod.fst, k ∉ d.items.map Prod.fst) :
    (l.foldl (collectStep found) d).items =
      d.items ++ l.filterMap fun m => (found m.1 m.2).map (m.1, ·) := by
  induction l generalizing d with
  | nil => simp
  | cons m l ih =>
    simp only [List.map_cons, List.nodup_cons, List.mem_cons, forall_eq_or_imp] at hl hd
    have hd' : ∀ k ∈ l.map Prod.fst, k ∉ (collectStep found d m).items.map Prod.fst := by
      intro k hk
      have hne : k ≠ m.1 := fun h => hl.1 (h ▸ hk)
      rw [collectStep_items _ _ _ hd.1]
      cases found m.1 m.2 <;> simp [hd.2 k hk, hne]
    rw [List.foldl_cons, ih _ hl.2 hd', collectStep_items _ _ _ hd.1]
    cases hf : found m.1 m.2 <;> simp [List.filterMap_cons, hf]

/-- The loop puts every module in the result at most once, as `found` gives it. -/
theorem collect_items :
    (collect found).items = knownModules.items.filterMap fun m => (found m.1 m.2).map (m.1, ·) :=
  foldl_collectStep_items found _ _ knownModules.nodup fun _ _ => List.not_mem_nil _

theorem lookup_filterMap (k : String) (l : List (String × Locator)) (hl : (l.map Prod.fst).Nodup) :
    (l.filterMap fun m => (found m.1 m.2).map (m.1, ·)).lookup k = (l.lookup k).bind (found k) := by
  induction l with
  | nil => rfl
  | cons m l ih =>
    obtain ⟨k', locator⟩ := m
    simp only [List.map_cons, List.nodup_cons] at hl
    by_cases h : k = k'
    · subst h
      have hk : l.lookup k = none :=
        List.lookup_eq_none_iff.2 fun p hp => bne_iff_ne.2 fun h => hl.1 (h ▸ List.mem_map_of_mem _ hp)
      cases hf : found k locator <;> simp [List.filterMap_cons, hf, ih hl.2, hk]
    · have hb : (k == k') = false := beq_false_of_ne h
      cases hf : found k' locator <;> simp [List.filterMap_cons, hf, List.lookup_cons, hb, ih hl.2]

/-- A name is in the result exactly when it is in the registry and `found` gives a path for
    its module. -/
theorem collect_get? (name : String) :
    (collect found).get? name = (knownModules.get? name).bind (found name) := by
  rw [Dict.get?, collect_items, lookup_filterMap _ _ _ knownModules.nodup]
  rfl

/-- The modules found are in the order of the registry. -/
theorem collect_keys :
    (collect found).items.map Prod.fst =
      (knownModules.items.filter fun m => (found m.1 m.2).isSome).map Prod.fst := by
  rw [collect_items]
  induction knownModules.items with
  | nil => rfl
  | cons m l ih => cases hf : found m.1 m.2 <;> simp [List.filterMap_cons, List.filter_cons, hf, ih]

end Collect

/-- A module is found in a checkout exactly when it is in the registry and the path its
    locator gives is there. -/
theorem locateFromCheckout_get? (fs : Fs φ) (environ : String → Option String)
    (checkoutDir : Path) (s : φ) (name : String) :
    (locateFromCheckout fs environ checkoutDir s).get? name =
      ((knownModules.get? name).map fun locator => locator environ name checkoutDir).filter
        (fs.pathExists s) := by
  rw [locateFromCheckout, collect_get?]
  cases knownModules.get? name <;> simp [Option.filter]

/-- The modules found in a checkout are those of the registry whose path is there, in the
    registry's order. -/
theorem locateFromCheckout_keys (fs : Fs φ) (environ : String → Option String)
    (checkoutDir : Path) (s : φ) :
    (locateFromCheckout fs environ checkoutDir s).items.map Prod.fst =
      (knownModules.items.filter fun m => fs.pathExists s (m.2 environ m.1 checkoutDir)).map
        Prod.fst := by
  rw [locateFromCheckout, collect_keys]
  congr 2
  funext m
  dsimp only
  cases fs.pathExists s (m.2 environ m.1 checkoutDir) <;> rfl

/-- A module is found in a directory exactly when it is in the registry and the directory
    of its name resolves to one with a `zephyr/module.yml` file. -/
theorem locateFromDirectory_get? (fs : Fs φ) (directory : Path) (s : φ) (name : String) :
    (locateFromDirectory fs directory s).get? name =
      ((knownModules.get? name).map fun _ => fs.resolve s (directory / name)).filter
        fun modpath => fs.isFile s (modpath / "zephyr" / "module.yml") := by
  rw [locateFromDirectory, collect_get?]
  cases knownModules.get? name <;> simp [Option.filter]

/-- With `src/platform/ec` in the checkout, zmake looks for projects in its
    `zephyr/program`, and without it nowhere. -/
theorem defaultProjectsDirs_locateFromCheckout (fs : Fs φ) (environ : String → Option String)
    (checkoutDir : Path) (s : φ) :
    defaultProjectsDirs (locateFromCheckout fs environ checkoutDir s) =
      if fs.pathExists s (checkoutDir / "src" / "platform" / "ec") then
        [checkoutDir / "src" / "platform" / "ec" / "zephyr" / "program"]
      else [] := by
  have hec : knownModules.get? "ec" = some fun _ _ checkout => checkout / "src" / "platform" / "ec" :=
    rfl
  rw [defaultProjectsDirs, locateFromCheckout, collect_get?, hec]
  split_ifs with h <;> simp [h]

/-! ### The links -/

/-- The part of a `build_config.BuildConfig` that `setup_module_symlinks` sets. -/
structure BuildConfig where
  /-- `cmake_defs`. -/
  cmakeDefs : Dict String := Dict.empty

/-- The loop `for name, path in modules.items()` of `setup_module_symlinks`: the links it
    makes (`module_links`), and the state after. -/
def linkModules (fs : Fs φ) (outputDir : Path) : List (String × Path) → φ → List Path × φ
  | [], s => ([], s)
  | (name, path) :: items, s =>
    let linkPath := fs.resolve s outputDir / name
    let (moduleLinks, s') := linkModules fs outputDir items (fs.updateSymlink path linkPath s)
    (linkPath :: moduleLinks, s')

/-- `setup_module_symlinks(output_dir, modules)`: the `BuildConfig` it returns, and the
    state after. -/
def setupModuleSymlinks (fs : Fs φ) (outputDir : Path) (modules : Dict Path) (s : φ) :
    BuildConfig × φ :=
  let s := if !fs.pathExists s outputDir then fs.mkdir outputDir s else s
  let (moduleLinks, s) := linkModules fs outputDir modules.items s
  if moduleLinks.isEmpty then ({}, s)
  else ({ cmakeDefs := Dict.empty.set "ZEPHYR_MODULES" (";".intercalate (moduleLinks.map Path.str)) }, s)

/-- What `setup_module_symlinks` needs of `util.update_symlink` for where it links: the
    directory a link is made in resolves as before. -/
structure Fs.ResolveLaw (fs : Fs φ) : Prop where
  resolve_dir : ∀ s target dir (name : String),
    fs.resolve (fs.updateSymlink target (fs.resolve s dir / name) s) dir = fs.resolve s dir

/-- What `setup_module_symlinks` needs of `util.update_symlink` for the links themselves:
    the link leads to the target afterwards, and every other entry of the directory it is
    made in is as it was. -/
structure Fs.LinkLaw (fs : Fs φ) : Prop where
  readlink_self : ∀ s target link, fs.readlink (fs.updateSymlink target link s) link = some target
  readlink_of_ne : ∀ s target (dir : Path) (name name' : String), IsPlainName name → IsPlainName name' →
    name ≠ name' →
      fs.readlink (fs.updateSymlink target (dir / name) s) (dir / name') = fs.readlink s (dir / name')

theorem setupModuleSymlinks_eq (fs : Fs φ) (outputDir : Path) (modules : Dict Path) (s : φ) :
    setupModuleSymlinks fs outputDir modules s =
      let r := linkModules fs outputDir modules.items
        (if !fs.pathExists s outputDir then fs.mkdir outputDir s else s)
      (if r.1.isEmpty then {}
        else { cmakeDefs := Dict.empty.set "ZEPHYR_MODULES" (";".intercalate (r.1.map Path.str)) },
        r.2) := by
  unfold setupModuleSymlinks
  dsimp only
  generalize (if !fs.pathExists s outputDir then fs.mkdir outputDir s else s) = s₁
  rcases linkModules fs outputDir modules.items s₁ with ⟨links, s'⟩
  split <;> rfl

/-- A file system of symbolic links alone, where every path is there and resolves to
    itself: one that meets both laws. -/
def Fs.links : Fs (Path → Option Path) where
  pathExists _ _ := true
  isFile _ _ := false
  resolve _ p := p
  mkdir _ s := s
  updateSymlink target link s := Function.update s link (some target)
  readlink s p := s p

theorem Fs.links_resolveLaw : Fs.links.ResolveLaw :=
  ⟨fun _ _ _ _ => rfl⟩

theorem Fs.links_linkLaw : Fs.links.LinkLaw where
  readlink_self _ _ _ := Function.update_same _ _ _
  readlink_of_ne _ _ _ _ _ _ _ h := Function.update_noteq (by simpa using Ne.symm h) _ _

section Links

variable {fs : Fs φ} (outputDir : Path)

/-- Every link of the loop is made in the directory `outputDir` resolves to at its start. -/
theorem linkModules_fst (hres : fs.ResolveLaw) (items : List (String × Path)) (s : φ) :
    (linkModules fs outputDir items s).1 = items.map fun m => fs.resolve s outputDir / m.1 := by
  induction items generalizing s with
  | nil => rfl
  | cons m items ih => simp [linkModules, ih, hres.resolve_dir]

/-- The loop leaves alone every entry of the output directory that it does not link. -/
theorem readlink_linkModules_of_not_mem (hres : fs.ResolveLaw) (hlink : fs.LinkLaw)
    (items : List (String × Path))
    (hplain : ∀ m ∈ items, IsPlainName m.1) (s : φ) {name : String} (hname : IsPlainName name)
    (hn : name ∉ items.map Prod.fst) :
    fs.readlink (linkModules fs outputDir items s).2 (fs.resolve s outputDir / name) =
      fs.readlink s (fs.resolve s outputDir / name) := by
  induction items generalizing s with
  | nil => rfl
  | cons m items ih =>
    simp only [List.map_cons, List.mem_cons, not_or] at hn
    simp only [List.forall_mem_cons] at hplain
    have h := ih hplain.2 (fs.updateSymlink m.2 (fs.resolve s outputDir / m.1) s) hn.2
    rw [hres.resolve_dir] at h
    simp only [linkModules]
    rw [h, hlink.readlink_of_ne _ _ _ _ _ hplain.1 hname (Ne.symm hn.1)]

/-- With no name twice, the link the loop makes for a module leads to it at the end. -/
theorem readlink_linkModules (hres : fs.ResolveLaw) (hlink : fs.LinkLaw)
    (items : List (String × Path)) (hkeys : (items.map Prod.fst).Nodup)
    (hplain : ∀ m ∈ items, IsPlainName m.1) (s : φ) : ∀ m ∈ items,
      fs.readlink (linkModules fs outputDir items s).2 (fs.resolve s outputDir / m.1) = some m.2 := by
  induction items generalizing s with
  | nil => simp
  | cons m items ih =>
    simp only [List.map_cons, List.nodup_cons] at hkeys
    simp only [List.forall_mem_cons] at hplain
    intro m' hm'
    simp only [linkModules]
    rcases List.mem_cons.1 hm' with rfl | hm'
    · -- the link of the first module: no later round links its name again
      have h := readlink_linkModules_of_not_mem outputDir hres hlink _ hplain.2
        (fs.updateSymlink m'.2 (fs.resolve s outputDir / m'.1) s) hplain.1 hkeys.1
      rw [hres.resolve_dir] at h
      rw [h, hlink.readlink_self]
    · have h := ih hkeys.2 hplain.2 (fs.updateSymlink m.2 (fs.resolve s outputDir / m.1) s) m' hm'
      rwa [hres.resolve_dir] at h

/-- The value of `ZEPHYR_MODULES`: the link of every module, in the order of the `dict`, in
    the directory the output directory resolves to once it is there; no value without a
    module. -/
theorem setupModuleSymlinks_cmakeDefs (hres : fs.ResolveLaw) (modules : Dict Path) (s : φ) :
    let r := fs.resolve (if !fs.pathExists s outputDir then fs.mkdir outputDir s else s) outputDir
    (setupModuleSymlinks fs outputDir modules s).1.cmakeDefs.get? "ZEPHYR_MODULES" =
      if modules.items = [] then none
      else some (";".intercalate (modules.items.map fun m => (r / m.1).str)) := by
  rw [setupModuleSymlinks_eq]
  dsimp only
  rw [linkModules_fst outputDir hres]
  cases modules.items <;> simp [Dict.get?, Dict.set, Dict.setItems, Dict.empty, Function.comp_def]

/-- CMake, splitting `ZEPHYR_MODULES` at `;`, gets back the link of every module in the
    order of the `dict`, where no name and no component of the output directory holds a
    `;`. -/
theorem splitOn_zephyrModules (hres : fs.ResolveLaw) (modules : Dict Path) (s : φ) :
    let r := fs.resolve (if !fs.pathExists s outputDir then fs.mkdir outputDir s else s) outputDir
    (∀ c ∈ r.parts, ';' ∉ c.data) → (∀ m ∈ modules.items, ';' ∉ m.1.data) →
    ((setupModuleSymlinks fs outputDir modules s).1.cmakeDefs.get? "ZEPHYR_MODULES").map
        (fun v => (v.data.splitOn ';').map String.mk) =
      if modules.items = [] then none else some (modules.items.map fun m => (r / m.1).str) := by
  intro r hr hnames
  rw [setupModuleSymlinks_cmakeDefs outputDir hres]
  by_cases h : modules.items = []
  · simp only [h, if_true, Option.map_none']
  · have hsemi : ∀ p ∈ modules.items.map (r / ·.1), ∀ c ∈ p.parts, ';' ∉ c.data := by
      simp only [List.mem_map]
      rintro _ ⟨m, hm, rfl⟩ c hc
      rcases List.mem_append.1 hc with hc | hc
      · exact hr c hc
      · exact (List.mem_singleton.1 hc) ▸ hnames m hm
    have hl : modules.items.map (fun m => (r / m.1).str) =
        (modules.items.map (r / ·.1)).map Path.str := by
      simp only [List.map_map, Function.comp_def]
    rw [if_neg h, if_neg h, Option.map_some', hl, splitOn_intercalate_str (by simpa using h) hsemi]

/-- The modules found in a checkout, CMake gets back from `ZEPHYR_MODULES`: the link of
    every module of the registry whose path is there, in the registry's order; with none,
    there is no `ZEPHYR_MODULES`. -/
theorem zephyrModules_locateFromCheckout (hres : fs.ResolveLaw) (environ : String → Option String)
    (checkoutDir : Path) (s : φ) :
    let r := fs.resolve (if !fs.pathExists s outputDir then fs.mkdir outputDir s else s) outputDir
    (∀ c ∈ r.parts, ';' ∉ c.data) →
    ((setupModuleSymlinks fs outputDir (locateFromCheckout fs environ checkoutDir s) s).1.cmakeDefs.get?
        "ZEPHYR_MODULES").map (fun v => (v.data.splitOn ';').map String.mk) =
      let found := (knownModules.items.filter fun m =>
        fs.pathExists s (m.2 environ m.1 checkoutDir)).map Prod.fst
      if found = [] then none else some (found.map fun name => (r / name).str) := by
  intro r hr
  have hkeys := locateFromCheckout_keys fs environ checkoutDir s
  have hnames : ∀ m ∈ (locateFromCheckout fs environ checkoutDir s).items, ';' ∉ m.1.data := by
    intro m hm
    obtain ⟨m', hm', he⟩ := List.mem_map.1 (hkeys ▸ List.mem_map_of_mem Prod.fst hm)
    exact he ▸ semicolon_not_mem_knownModules m' (List.mem_filter.1 hm').1
  rw [splitOn_zephyrModules outputDir hres _ s hr hnames]
  simp only [← hkeys, List.map_eq_nil_iff, List.map_map]
  rfl

theorem zephyrModules_locateFromCheckout_all :
    Fs.links.ResolveLaw ∧ (∀ c ∈ ["out"], ';' ∉ c.data) ∧
      ((setupModuleSymlinks Fs.links ⟨true, ["out"]⟩
        (locateFromCheckout Fs.links (fun _ => none) ⟨true, ["cros"]⟩ fun _ => none)
          fun _ => none).1.cmakeDefs.get? "ZEPHYR_MODULES").map
            (fun v => (v.data.splitOn ';').map String.mk) =
        some (knownModules.items.map fun m => "/out/" ++ m.1) := by
  refine ⟨Fs.links_resolveLaw, by decide, ?_⟩
  exact zephyrModules_locateFromCheckout ⟨true, ["out"]⟩ Fs.links_resolveLaw (fun _ => none)
    ⟨true, ["cros"]⟩ (fun _ => none) (by decide)

end Links

end ChromeEc.Zmake
