/-
  ArgusManager.Sim.Extends
  ────────────────────────
  **The loader of scenario files that extend each other**
  (`load_yaml_with_extends`, `src/sim/config.rs`).

  A load reads a file, takes its `extends` out and loads the file it names,
  with the canonical paths on the way in a visited set.  The canonical files
  that are not visited yet get fewer with every call, so every load ends.  What
  it returns is read off the chain of files, as the file system and the parser
  alone give it (`load_extends_chain`).

  A relative path that has no canonical one is looked up below the base
  directory, as it is spelled, and such lookups can go round a symbolic link
  under ever longer spellings.  There it is the spellings that get fewer: one
  longer than `PATH_MAX` cannot be opened.
-/
import ArgusManager.Lib.Walk
import ArgusManager.Sim.Yaml
import Mathlib.Data.Finset.Card
import Mathlib.Data.Set.Finite.List

namespace ArgusManager.Sim

open EntryMap

/-! ## §1. Paths. -/

/-- A Unix path, by its components. -/
structure Path where
  absolute : Bool
  components : List String
  deriving DecidableEq, Repr

namespace Path

/-- `Path::new`: repeated slashes and inner dots do not count. -/
def new (s : String) : Path :=
  let parts := (s.toList.splitOn '/').map String.ofList
  let inner := parts.filter fun c => c ≠ "" ∧ c ≠ "."
  if s.toList.head? = some '/' then ⟨true, inner⟩
  else if parts.head? = some "." then ⟨false, "." :: inner⟩
  else ⟨false, inner⟩

/-- `Path::join`: an absolute path replaces everything. -/
def join (p q : Path) : Path :=
  if q.absolute then q
  else if p.absolute ∨ p.components ≠ [] then
    -- a leading dot of `q` is an inner one now
    ⟨p.absolute, p.components ++ q.components.filter (· ≠ ".")⟩
  else q

/-- `Path::parent`. -/
def parent (p : Path) : Option Path :=
  if p.components = [] then none
  else some ⟨p.absolute, p.components.dropLast⟩

end Path

/-! ## §2. Files. -/

/-- The files a process can see. -/
structure FileSystem where
  /-- `Path::canonicalize`; `none` is an error. -/
  canonicalize : Path → Option Path
  /-- `fs::read_to_string`. -/
  readToString : Path → Except String String
  /-- The canonical paths of the files, finitely many. -/
  files : Finset Path
  /-- What the paths that can be read are made of: the names in directories,
  and dots. -/
  names : Finset String
  /-- `PATH_MAX`, in components. -/
  pathMax : Nat
  canonicalize_idem : ∀ p file, canonicalize p = some file →
    canonicalize file = some file
  /-- What can be read is a file. -/
  canonicalize_of_read : ∀ p content, readToString p = .ok content →
    ∃ file ∈ files, canonicalize p = some file
  /-- Files are below the root. -/
  file_below_root : ∀ file ∈ files,
    file.absolute = true ∧ file.components ≠ []
  /-- `ENAMETOOLONG` and `ENOENT`. -/
  read_bounded : ∀ p content, readToString p = .ok content →
    p.components.length ≤ pathMax ∧ ∀ c ∈ p.components, c ∈ names

namespace FileSystem

/-- The spellings of paths that can be read. -/
theorem finite_spellings (fs : FileSystem) :
    {p | ∃ content, fs.readToString p = .ok content}.Finite := by
  have hlists : {cs : List fs.names | cs.length ≤ fs.pathMax}.Finite :=
    List.finite_length_le _ _
  have hpaths := Set.Finite.image2 Path.mk (Set.finite_univ (α := Bool))
    (hlists.image (List.map Subtype.val))
  refine hpaths.subset ?_
  rintro ⟨absolute, components⟩ ⟨content, hread⟩
  obtain ⟨hlength, hnames⟩ := fs.read_bounded _ _ hread
  refine ⟨absolute, trivial, components, ⟨components.attachWith _ hnames, ?_,
    List.attachWith_map_subtype_val _⟩, rfl⟩
  show (components.attachWith _ hnames).length ≤ fs.pathMax
  rw [List.length_attachWith]
  exact hlength

noncomputable def spellings (fs : FileSystem) : Finset Path :=
  fs.finite_spellings.toFinset

theorem mem_spellings {fs : FileSystem} {p : Path} {content : String}
    (h : fs.readToString p = .ok content) : p ∈ fs.spellings :=
  fs.finite_spellings.mem_toFinset.mpr ⟨content, h⟩

end FileSystem

inductive LoadError where
  | io (path : Path) (source : String)
  | parse (path : Path) (source : String)
  | circularExtends (cycle : Finset Path)

/-! ## §3. The `extends` key. -/

namespace Yaml

variable {κ : Type} [DecidableEq κ]

/-- `as_mapping_mut`, then `remove`: what was under the key, and what is left.
Tags are looked through. -/
def remove (key : κ) : Yaml κ → Option (Yaml κ) × Yaml κ
  | .mapping es => (es.lookup key, .mapping (swapRemove key es))
  | .tagged tag value =>
      let (removed, value) := value.remove key
      (removed, .tagged tag value)
  | value => (none, value)

/-- `from_value` for a `PathBuf`: a string, tagged or not. -/
def toPath : Yaml κ → Except String Path
  | .string s => .ok (.new s)
  | .tagged _ value => value.toPath
  | _ => .error "invalid type, expected path string"

/-- What a mapping holds under a key, looking through tags. -/
def under? (key : κ) : Yaml κ → Option (Yaml κ)
  | .mapping es => es.lookup key
  | .tagged _ value => value.under? key
  | _ => none

theorem valid_remove (key : κ) {v : Yaml κ} (h : v.Valid) :
    (v.remove key).2.Valid := by
  induction h with
  | mapping keys h _ =>
      exact .mapping (keys.swapRemove key) fun e he =>
        h e (mem_of_mem_swapRemove he)
  | tagged _ ih => exact .tagged ih
  | null => exact .null
  | bool b => exact .bool b
  | number n => exact .number n
  | string s => exact .string s
  | sequence h _ => exact .sequence h

theorem remove_fst (key : κ) (y : Yaml κ) :
    (y.remove key).1 = y.under? key := by
  fun_induction Yaml.remove key y with
  | case1 es => rfl
  | case2 tag value removed rest heq ih =>
      rw [heq] at ih
      exact ih
  | case3 y hmapping htagged =>
      cases y with
      | mapping es => exact absurd rfl (hmapping es)
      | tagged tag value => exact absurd rfl (htagged tag value)
      | _ => rfl

/-- **What is removed is gone**, and nothing else. -/
theorem under?_remove (key k : κ) {y : Yaml κ} (h : y.Valid) :
    (y.remove key).2.under? k = if k = key then none else y.under? k := by
  induction h with
  | mapping keys _ _ => exact lookup_swapRemove keys key k
  | tagged _ ih => exact ih
  | null => exact (ite_self none).symm
  | bool _ => exact (ite_self none).symm
  | number _ => exact (ite_self none).symm
  | string _ => exact (ite_self none).symm
  | sequence _ _ => exact (ite_self none).symm

/-- A merge has no key that neither value has. -/
theorem under?_deepMerge {key : κ} {b o : Yaml κ} (ho : o.Valid)
    (hb : b.under? key = none) (hkey : o.under? key = none) :
    (deepMerge b o).under? key = none := by
  cases ho with
  | @mapping o keys _ =>
      cases b with
      | mapping b =>
          show (mergeEntries b o).lookup key = none
          rw [lookup_mergeEntries keys, show o.lookup key = none from hkey]
          exact hb
      | _ =>
          rw [deepMerge_onto rfl]
          exact hkey
  | _ =>
      rw [deepMerge_of_not_mapping rfl]
      exact hkey

end Yaml

/-- The value without the key. -/
def YamlValue.without {κ : Type} [DecidableEq κ] (v : YamlValue κ) (key : κ) :
    YamlValue κ :=
  ⟨(v.tree.remove key).2, Yaml.valid_remove key v.valid⟩

/-! ## §4. The loader. -/

section Loader

variable {κ : Type} [DecidableEq κ] (fs : FileSystem)
  (fromStr : String → Except String (YamlValue κ)) (extendsKey : κ)

/-- The path under which a file counts as visited. -/
def canonical (baseDir path : Path) : Path :=
  (fs.canonicalize path).getD (baseDir.join path)

/-- Where an `extends` leads. -/
def parentPath (canonical parentRel : Path) : Path :=
  (canonical.parent.getD (.new ".")).join parentRel

/-- How much a load has before it at most: spellings as long as the path is
relative, then canonical files. -/
noncomputable def rank (path : Path) (visited : Finset Path) : Nat × Nat :=
  (if path.absolute then 0 else (fs.spellings \ visited).card + 1,
    (fs.files \ visited).card)

section Rank

variable {fs}

/-- One file fewer that is not visited. -/
theorem card_unvisited_lt {files visited : Finset Path} {file : Path}
    (hfile : file ∈ files) (hseen : file ∉ visited) :
    (files \ insert file visited).card < (files \ visited).card := by
  refine Finset.card_lt_card (Finset.ssubset_iff_subset_ne.mpr ⟨?_, ?_⟩)
  · exact Finset.sdiff_subset_sdiff le_rfl (Finset.subset_insert _ _)
  · intro heq
    have hmem : file ∈ files \ visited :=
      Finset.mem_sdiff.mpr ⟨hfile, hseen⟩
    rw [← heq] at hmem
    exact (Finset.mem_sdiff.mp hmem).2 (Finset.mem_insert_self _ _)

/-- A canonical path that can be read is that of a file. -/
theorem mem_files {path file : Path} {content : String}
    (hpath : fs.canonicalize path = some file)
    (hread : fs.readToString file = .ok content) : file ∈ fs.files := by
  obtain ⟨target, hfile, htarget⟩ := fs.canonicalize_of_read file content hread
  rw [fs.canonicalize_idem path file hpath] at htarget
  exact Option.some.inj htarget ▸ hfile

/-- A file extends an absolute path. -/
theorem absolute_parentPath {file : Path} (h : file ∈ fs.files)
    (parentRel : Path) : (parentPath file parentRel).absolute = true := by
  obtain ⟨habsolute, hbelow⟩ := fs.file_below_root file h
  unfold parentPath Path.parent
  rw [if_neg hbelow, Option.getD_some, habsolute]
  unfold Path.join
  split
  next hrel => exact hrel
  next => rw [if_pos (.inl rfl)]

/-- Only a relative path is looked up below the base directory. -/
theorem relative_of_joined {path baseDir : Path} {content : String}
    (hpath : fs.canonicalize path = none)
    (hread : fs.readToString (baseDir.join path) = .ok content) :
    path.absolute = false := by
  by_contra habsolute
  have hsame : baseDir.join path = path := if_pos (by simpa using habsolute)
  rw [hsame] at hread
  obtain ⟨file, _, hfile⟩ := fs.canonicalize_of_read path content hread
  rw [hpath] at hfile
  cases hfile

/-- **With every file that is read there is less before a load.** -/
theorem rank_lt {path baseDir : Path} {visited : Finset Path}
    {content : String} (parentRel : Path)
    (hread : fs.readToString (canonical fs baseDir path) = .ok content)
    (hseen : canonical fs baseDir path ∉ visited) :
    Prod.Lex (· < ·) (· < ·)
      (rank fs (parentPath (canonical fs baseDir path) parentRel)
        (insert (canonical fs baseDir path) visited))
      (rank fs path visited) := by
  cases hpath : fs.canonicalize path with
  | some file =>
      have hfile : canonical fs baseDir path = file := by
        unfold canonical
        rw [hpath]
        rfl
      rw [hfile] at hread hseen ⊢
      have hmem := mem_files hpath hread
      have hfewer := card_unvisited_lt hmem hseen
      unfold rank
      rw [absolute_parentPath hmem, if_pos rfl]
      split
      next => exact .right _ hfewer
      next => exact .left _ _ (Nat.succ_pos _)
  | none =>
      have hjoined : canonical fs baseDir path = baseDir.join path := by
        unfold canonical
        rw [hpath]
        rfl
      have hfewer := card_unvisited_lt (FileSystem.mem_spellings hread) hseen
      rw [hjoined] at hread
      have hrelative := relative_of_joined hpath hread
      unfold rank
      rw [hrelative]
      -- the parent is absolute, or relative with one spelling fewer left
      split
      next => exact .left _ _ (Nat.succ_pos _)
      next => exact .left _ _ (Nat.succ_lt_succ hfewer)

end Rank

/-- `load_yaml_with_extends`, and the visited set afterwards. -/
def loadYamlWithExtends (path baseDir : Path) (visited : Finset Path) :
    Except LoadError (YamlValue κ) × Finset Path :=
  let file := canonical fs baseDir path
  if _hseen : file ∈ visited then (.error (.circularExtends visited), visited)
  else
    let inside := insert file visited
    match _hread : fs.readToString file with
    | .error source => (.error (.io file source), inside)
    | .ok content =>
        match fromStr content with
        | .error source => (.error (.parse file source), inside)
        | .ok value =>
            match (value.tree.remove extendsKey).1 with
            | none => (.ok value, inside.erase file)
            | some extendsVal =>
                match extendsVal.toPath with
                | .error source => (.error (.parse file source), inside)
                | .ok parentRel =>
                    match loadYamlWithExtends (parentPath file parentRel)
                        baseDir inside with
                    | (.error err, visited) => (.error err, visited)
                    | (.ok parent, visited) =>
                        (.ok (parent.deepMerge (value.without extendsKey)),
                          visited.erase file)
  termination_by rank fs path visited
  decreasing_by
    exact rank_lt _ _hread _hseen

/-! ## §5. One file. -/

/-- What a file says: the path it extends, and its value without the key. -/
def readFile (file : Path) :
    Except LoadError (Option Path × YamlValue κ) :=
  match fs.readToString file with
  | .error source => .error (.io file source)
  | .ok content =>
      match fromStr content with
      | .error source => .error (.parse file source)
      | .ok value =>
          match (value.tree.remove extendsKey).1 with
          | none => .ok (none, value.without extendsKey)
          | some extendsVal =>
              match extendsVal.toPath with
              | .error source => .error (.parse file source)
              | .ok parentRel =>
                  .ok (some (parentPath file parentRel),
                    value.without extendsKey)

/-- `value` is `parsed` without the key. -/
structure Strips (parsed value : YamlValue κ) : Prop where
  gone : value.tree.under? extendsKey = none
  others : ∀ k ≠ extendsKey, value.tree.under? k = parsed.tree.under? k

/-- **What a file says**, by the file system and the parser alone: it extends
nothing, or a path next to it. -/
inductive Says (file : Path) : Option Path → YamlValue κ → Prop where
  | root {content : String} {value : YamlValue κ}
      (hread : fs.readToString file = .ok content)
      (hparse : fromStr content = .ok value)
      (hkey : value.tree.under? extendsKey = none) : Says file none value
  | child {content : String} {parsed value : YamlValue κ}
      {extendsVal : Yaml κ} {parentRel : Path}
      (hread : fs.readToString file = .ok content)
      (hparse : fromStr content = .ok parsed)
      (hkey : parsed.tree.under? extendsKey = some extendsVal)
      (hpath : extendsVal.toPath = .ok parentRel)
      (hvalue : Strips extendsKey parsed value) :
      Says file (some ((file.parent.getD (.new ".")).join parentRel)) value

theorem strips_without (v : YamlValue κ) :
    Strips extendsKey v (v.without extendsKey) where
  gone := (Yaml.under?_remove extendsKey extendsKey v.valid).trans (if_pos rfl)
  others k hk := (Yaml.under?_remove extendsKey k v.valid).trans (if_neg hk)

/-- A value without the key is the same. -/
theorem without_of_absent {value : YamlValue κ}
    (h : (value.tree.remove extendsKey).1 = none) :
    value.without extendsKey = value := by
  have hremove : ∀ y : Yaml κ, (y.remove extendsKey).1 = none →
      (y.remove extendsKey).2 = y := by
    intro y hy
    fun_induction Yaml.remove extendsKey y with
    | case1 es => exact congrArg Yaml.mapping (swapRemove_of_absent hy)
    | case2 tag value removed rest heq ih =>
        rw [heq] at ih
        exact congrArg (Yaml.tagged tag) (ih hy)
    | case3 => rfl
  exact YamlValue.ext (hremove value.tree h)

section

variable {fs fromStr extendsKey} {file : Path}

theorem says_of_readFile {next : Option Path} {value : YamlValue κ}
    (h : readFile fs fromStr extendsKey file = .ok (next, value)) :
    Says fs fromStr extendsKey file next value := by
  unfold readFile at h
  split at h
  next => cases h
  next content hread =>
    split at h
    next => cases h
    next parsed hparse =>
      split at h
      next hkey =>
        cases h
        rw [without_of_absent extendsKey hkey]
        exact .root hread hparse ((Yaml.remove_fst _ _).symm.trans hkey)
      next extendsVal hkey =>
        split at h
        next => cases h
        next parentRel hpath =>
          cases h
          exact .child hread hparse ((Yaml.remove_fst _ _).symm.trans hkey)
            hpath (strips_without extendsKey parsed)

/-- A file that says something is read so. -/
theorem Says.readFile {next : Option Path} {value : YamlValue κ}
    (h : Says fs fromStr extendsKey file next value) :
    ∃ node, readFile fs fromStr extendsKey file = .ok node := by
  unfold Sim.readFile
  cases h with
  | root hread hparse hkey =>
      rw [hread]
      dsimp only
      rw [hparse]
      dsimp only
      rw [Yaml.remove_fst, hkey]
      exact ⟨_, rfl⟩
  | child hread hparse hkey hpath hvalue =>
      rw [hread]
      dsimp only
      rw [hparse]
      dsimp only
      rw [Yaml.remove_fst, hkey]
      dsimp only
      rw [hpath]
      exact ⟨_, rfl⟩

theorem Says.read {next : Option Path} {value : YamlValue κ}
    (h : Says fs fromStr extendsKey file next value) :
    ∃ content, fs.readToString file = .ok content := by
  cases h with
  | root hread _ _ => exact ⟨_, hread⟩
  | child hread _ _ _ _ => exact ⟨_, hread⟩

theorem Says.gone {next : Option Path} {value : YamlValue κ}
    (h : Says fs fromStr extendsKey file next value) :
    value.tree.under? extendsKey = none := by
  cases h with
  | root _ _ hkey => exact hkey
  | child _ _ _ _ hvalue => exact hvalue.gone

/-- With a file that extends another there is less before its load. -/
theorem rank_lt_of_child {path baseDir parent : Path} {visited : Finset Path}
    {value : YamlValue κ} (hseen : canonical fs baseDir path ∉ visited)
    (h : Says fs fromStr extendsKey (canonical fs baseDir path) (some parent)
      value) :
    Prod.Lex (· < ·) (· < ·)
      (rank fs parent (insert (canonical fs baseDir path) visited))
      (rank fs path visited) := by
  cases h with
  | child hread _ _ _ _ => exact rank_lt _ hread hseen

end

/-- **Everything a load can do**, file by file. -/
theorem load_eq (path baseDir : Path) (visited : Finset Path) :
    loadYamlWithExtends fs fromStr extendsKey path baseDir visited
      = let file := canonical fs baseDir path
        if file ∈ visited then (.error (.circularExtends visited), visited)
        else
          match readFile fs fromStr extendsKey file with
          | .error err => (.error err, insert file visited)
          | .ok (none, value) => (.ok value, (insert file visited).erase file)
          | .ok (some parent, value) =>
              match loadYamlWithExtends fs fromStr extendsKey parent baseDir
                  (insert file visited) with
              | (.error err, visited) => (.error err, visited)
              | (.ok base, visited) =>
                  (.ok (base.deepMerge value), visited.erase file) := by
  rw [loadYamlWithExtends]
  unfold readFile
  dsimp only
  by_cases hseen : canonical fs baseDir path ∈ visited
  · rw [dif_pos hseen, if_pos hseen]
  · rw [dif_neg hseen, if_neg hseen]
    split
    next source hread => rw [hread]
    next content hread =>
      rw [hread]
      dsimp only
      cases fromStr content with
      | error source => rfl
      | ok value =>
          dsimp only
          cases hkey : (value.tree.remove extendsKey).1 with
          | none =>
              -- no `extends`: the file is its own tree
              dsimp only
              rw [without_of_absent extendsKey hkey]
          | some extendsVal =>
              dsimp only
              cases extendsVal.toPath with
              | error source => rfl
              | ok parentRel => rfl

section Cases

variable {fs fromStr extendsKey} {path baseDir : Path} {visited : Finset Path}

theorem load_of_seen (h : canonical fs baseDir path ∈ visited) :
    loadYamlWithExtends fs fromStr extendsKey path baseDir visited
      = (.error (.circularExtends visited), visited) := by
  rw [load_eq]
  exact if_pos h

theorem load_of_failed {err : LoadError}
    (h : canonical fs baseDir path ∉ visited)
    (hread : readFile fs fromStr extendsKey (canonical fs baseDir path)
      = .error err) :
    loadYamlWithExtends fs fromStr extendsKey path baseDir visited
      = (.error err, insert (canonical fs baseDir path) visited) := by
  rw [load_eq]
  dsimp only
  rw [if_neg h, hread]

/-- A file that extends nothing is marked and unmarked. -/
theorem load_of_root {value : YamlValue κ}
    (h : canonical fs baseDir path ∉ visited)
    (hread : readFile fs fromStr extendsKey (canonical fs baseDir path)
      = .ok (none, value)) :
    loadYamlWithExtends fs fromStr extendsKey path baseDir visited
      = (.ok value, visited) := by
  rw [load_eq]
  dsimp only
  rw [if_neg h, hread]
  dsimp only
  rw [Finset.erase_insert h]

theorem load_of_child {parent : Path} {value : YamlValue κ}
    (h : canonical fs baseDir path ∉ visited)
    (hread : readFile fs fromStr extendsKey (canonical fs baseDir path)
      = .ok (some parent, value)) :
    loadYamlWithExtends fs fromStr extendsKey path baseDir visited
      = match loadYamlWithExtends fs fromStr extendsKey parent baseDir
            (insert (canonical fs baseDir path) visited) with
        | (.error err, visited) => (.error err, visited)
        | (.ok base, visited) =>
            (.ok (base.deepMerge value),
              visited.erase (canonical fs baseDir path)) := by
  rw [load_eq]
  dsimp only
  rw [if_neg h, hread]

/-- A file answers what its parent does, its own value merged on top. -/
theorem load_of_child_fst {parent : Path} {value : YamlValue κ}
    (h : canonical fs baseDir path ∉ visited)
    (hread : readFile fs fromStr extendsKey (canonical fs baseDir path)
      = .ok (some parent, value)) :
    (loadYamlWithExtends fs fromStr extendsKey path baseDir visited).1
      = (loadYamlWithExtends fs fromStr extendsKey parent baseDir
          (insert (canonical fs baseDir path) visited)).1.map
            fun base => base.deepMerge value := by
  rw [load_of_child h hread]
  generalize loadYamlWithExtends fs fromStr extendsKey parent baseDir
    (insert (canonical fs baseDir path) visited) = result
  obtain ⟨answer, after⟩ := result
  cases answer with
  | error err => rfl
  | ok base => rfl

end Cases

/-- **Induction along a load**: a visited file, one that fails, one that
extends nothing, and one that extends another. -/
theorem load_induction (baseDir : Path)
    {P : Path → Finset Path → Prop}
    (seen : ∀ path visited, canonical fs baseDir path ∈ visited →
      P path visited)
    (fails : ∀ path visited err, canonical fs baseDir path ∉ visited →
      readFile fs fromStr extendsKey (canonical fs baseDir path)
        = .error err → P path visited)
    (root : ∀ path visited value, canonical fs baseDir path ∉ visited →
      readFile fs fromStr extendsKey (canonical fs baseDir path)
        = .ok (none, value) → P path visited)
    (child : ∀ path visited parent value,
      canonical fs baseDir path ∉ visited →
      readFile fs fromStr extendsKey (canonical fs baseDir path)
        = .ok (some parent, value) →
      P parent (insert (canonical fs baseDir path) visited) → P path visited)
    (path : Path) (visited : Finset Path) : P path visited := by
  -- with every file that is read there is less before a load
  have hwf : WellFounded (InvImage (Prod.Lex (· < ·) (· < ·))
      fun call : Path × Finset Path => rank fs call.1 call.2) :=
    InvImage.wf _ (WellFoundedRelation.wf (α := Nat × Nat))
  refine hwf.induction (C := fun call => P call.1 call.2) (path, visited) ?_
  intro call ih
  obtain ⟨path, visited⟩ := call
  by_cases hseen : canonical fs baseDir path ∈ visited
  · exact seen path visited hseen
  · cases hread : readFile fs fromStr extendsKey (canonical fs baseDir path)
        with
    | error err => exact fails path visited err hseen hread
    | ok node =>
        obtain ⟨parent, value⟩ := node
        cases parent with
        | none => exact root path visited value hseen hread
        | some parent =>
            exact child path visited parent value hseen hread
              (ih (parent, insert (canonical fs baseDir path) visited)
                (rank_lt_of_child hseen (says_of_readFile hread)))

/-- **On success the visited set is as it was.** -/
theorem load_restores (path baseDir : Path) (visited : Finset Path) :
    ∀ value, (loadYamlWithExtends fs fromStr extendsKey path baseDir
        visited).1 = .ok value →
      (loadYamlWithExtends fs fromStr extendsKey path baseDir visited).2
        = visited := by
  induction path, visited using
    load_induction fs fromStr extendsKey baseDir with
  | seen path visited hseen =>
      rw [load_of_seen hseen]
      exact nofun
  | fails path visited err hseen hread =>
      rw [load_of_failed hseen hread]
      exact nofun
  | root path visited value hseen hread =>
      rw [load_of_root hseen hread]
      exact fun _ _ => rfl
  | child path visited parent value hseen hread ih =>
      rw [load_of_child hseen hread]
      generalize loadYamlWithExtends fs fromStr extendsKey parent baseDir
        (insert (canonical fs baseDir path) visited) = result at ih ⊢
      obtain ⟨answer, after⟩ := result
      cases answer with
      | error err => exact nofun
      | ok base =>
          intro _ _
          -- the file was marked before its parent was loaded
          have hafter : after = insert (canonical fs baseDir path) visited :=
            ih base rfl
          show after.erase _ = _
          rw [hafter, Finset.erase_insert hseen]

/-! ## §6. The chain. -/

/-- Where a path leads: to its canonical path or, if it has none, below the
base directory. -/
inductive Leads (baseDir : Path) : Path → Path → Prop where
  | canonical {path file : Path} (h : fs.canonicalize path = some file) :
      Leads baseDir path file
  | joined {path : Path} (h : fs.canonicalize path = none) :
      Leads baseDir path (baseDir.join path)

/-- The path that a file extends. -/
def extendedPath (file : Path) : Option Path := do
  let content ← (fs.readToString file).toOption
  let value ← (fromStr content).toOption
  let extendsVal ← value.tree.under? extendsKey
  let parentRel ← extendsVal.toPath.toOption
  return (file.parent.getD (.new ".")).join parentRel

/-- The file that a file extends. -/
def nextFile (baseDir file : Path) : Option Path :=
  (extendedPath fs fromStr extendsKey file).map fun path =>
    match fs.canonicalize path with
    | some next => next
    | none => baseDir.join path

/-- The values of a file and of the ones it extends, the root last, each
without its key. -/
inductive ExtendsChain (baseDir : Path) : Path → List (YamlValue κ) → Prop where
  | root {file : Path} {value : YamlValue κ}
      (h : Says fs fromStr extendsKey file none value) :
      ExtendsChain baseDir file [value]
  | child {file parent next : Path} {value : YamlValue κ}
      {values : List (YamlValue κ)}
      (h : Says fs fromStr extendsKey file (some parent) value)
      (hnext : Leads fs baseDir parent next)
      (rest : ExtendsChain baseDir next values) :
      ExtendsChain baseDir file (value :: values)

/-- The left fold of the merge from the root of a chain to its start. -/
def MergesTo (values : List (YamlValue κ)) (value : YamlValue κ) : Prop :=
  ∃ root rest, values.reverse = root :: rest
    ∧ value = rest.foldl YamlValue.deepMerge root

theorem MergesTo.cons {values : List (YamlValue κ)} {base : YamlValue κ}
    (h : MergesTo values base) (value : YamlValue κ) :
    MergesTo (value :: values) (base.deepMerge value) := by
  obtain ⟨root, rest, hrev, rfl⟩ := h
  refine ⟨root, rest ++ [value], ?_, ?_⟩
  · rw [List.reverse_cons, hrev, List.cons_append]
  · rw [List.foldl_append]
    rfl

/-- The code looks for a file where its path leads. -/
theorem leads_canonical (baseDir path : Path) :
    Leads fs baseDir path (canonical fs baseDir path) := by
  unfold canonical
  cases h : fs.canonicalize path with
  | some file => exact .canonical h
  | none => exact .joined h

section

variable {fs fromStr extendsKey} {file : Path} {value : YamlValue κ}

theorem nextFile_of_root (baseDir : Path)
    (h : Says fs fromStr extendsKey file none value) :
    nextFile fs fromStr extendsKey baseDir file = none := by
  cases h with
  | root hread hparse hkey =>
      unfold nextFile extendedPath
      simp [hread, hparse, hkey, Except.toOption]

theorem nextFile_of_child (baseDir : Path) {parent : Path}
    (h : Says fs fromStr extendsKey file (some parent) value) :
    nextFile fs fromStr extendsKey baseDir file
      = some (canonical fs baseDir parent) := by
  cases h with
  | @child content parsed _ extendsVal parentRel hread hparse hkey hpath _ =>
      have hextended : extendedPath fs fromStr extendsKey file
          = some ((file.parent.getD (.new ".")).join parentRel) := by
        unfold extendedPath
        simp [hread, hparse, hkey, hpath, Except.toOption]
      unfold nextFile canonical
      rw [hextended, Option.map_some]
      cases fs.canonicalize ((file.parent.getD (.new ".")).join parentRel) with
      | some next => rfl
      | none => rfl

/-- A path with a canonical one leads to a file, and that to another one. -/
theorem mem_files_of_located {path baseDir : Path} {content : String}
    (hlocated : path.absolute = true ∨ (fs.canonicalize path).isSome)
    (hread : fs.readToString (canonical fs baseDir path) = .ok content) :
    canonical fs baseDir path ∈ fs.files := by
  cases hpath : fs.canonicalize path with
  | some file =>
      have hfile : canonical fs baseDir path = file := by
        unfold canonical
        rw [hpath]
        rfl
      rw [hfile] at hread ⊢
      exact mem_files hpath hread
  | none =>
      have hjoined : canonical fs baseDir path = baseDir.join path := by
        unfold canonical
        rw [hpath]
        rfl
      rw [hjoined] at hread
      have hrelative := relative_of_joined hpath hread
      rcases hlocated with habsolute | hsome
      · rw [hrelative] at habsolute
        cases habsolute
      · rw [hpath] at hsome
        cases hsome

end

/-- **A load follows the walk from file to file**: it is circular if the walk
comes back, and merges the chain if not. -/
theorem load_follows (path baseDir : Path) (visited : Finset Path)
    (hread : ∀ file, Walk.Visits (nextFile fs fromStr extendsKey baseDir)
        visited (canonical fs baseDir path) file →
      ∃ next value, Says fs fromStr extendsKey file next value) :
    (Walk.Hits (nextFile fs fromStr extendsKey baseDir) visited
        (canonical fs baseDir path)
      ∧ ∃ cycle, (loadYamlWithExtends fs fromStr extendsKey path baseDir
          visited).1 = .error (.circularExtends cycle))
    ∨ (¬ Walk.Hits (nextFile fs fromStr extendsKey baseDir) visited
        (canonical fs baseDir path)
      ∧ ∃ values value, ExtendsChain fs fromStr extendsKey baseDir
          (canonical fs baseDir path) values
        ∧ MergesTo values value
        ∧ (loadYamlWithExtends fs fromStr extendsKey path baseDir visited).1
            = .ok value
        ∧ (∀ v ∈ value :: values, v.tree.under? extendsKey = none)
        ∧ (path.absolute = true ∨ (fs.canonicalize path).isSome →
            values.length ≤ (fs.files \ visited).card)) := by
  induction path, visited using
    load_induction fs fromStr extendsKey baseDir with
  | seen path visited hseen =>
      refine .inl ⟨Walk.hits_of_mem hseen, visited, ?_⟩
      rw [load_of_seen hseen]
  | fails path visited err hseen hfail =>
      -- the walk visits its start, and that says something
      obtain ⟨next, value, hsaid⟩ := hread _ (Walk.visits_start hseen)
      obtain ⟨node, hnode⟩ := hsaid.readFile
      rw [hfail] at hnode
      cases hnode
  | root path visited value hseen hroot =>
      have hsaid := says_of_readFile hroot
      have hend := nextFile_of_root baseDir hsaid
      refine .inr ⟨Walk.not_hits_of_end hend hseen, [value], value,
        .root hsaid, ⟨value, [], rfl, rfl⟩, ?_, ?_, ?_⟩
      · rw [load_of_root hseen hroot]
      · intro v hv
        have hsame : v = value := by simpa using hv
        rw [hsame]
        exact hsaid.gone
      · intro hlocated
        obtain ⟨content, hcontent⟩ := hsaid.read
        exact Nat.one_le_of_lt (card_unvisited_lt
          (mem_files_of_located hlocated hcontent) hseen)
  | child path visited parent value hseen hchild ih =>
      have hsaid := says_of_readFile hchild
      have hnext := nextFile_of_child baseDir hsaid
      rw [Finset.coe_insert] at ih
      -- the parent's load starts with this file among the visited
      have hhits := Walk.hits_step hnext hseen
      rw [load_of_child_fst hseen hchild, hhits]
      rcases ih fun file hvisit =>
          hread file (Walk.visits_step hnext hseen hvisit) with
        ⟨hhit, cycle, hload⟩
          | ⟨hmiss, values, base, hchain, hmerge, hload, hkeys, hlength⟩
      · refine .inl ⟨hhit, cycle, ?_⟩
        rw [hload]
        rfl
      · obtain ⟨hbase, hvalues⟩ := List.forall_mem_cons.mp hkeys
        refine .inr ⟨hmiss, value :: values, base.deepMerge value,
          .child hsaid (leads_canonical fs baseDir parent) hchain,
          hmerge.cons value, ?_, ?_, ?_⟩
        · rw [hload]
          rfl
        · refine List.forall_mem_cons.mpr ⟨?_,
            List.forall_mem_cons.mpr ⟨hsaid.gone, hvalues⟩⟩
          exact Yaml.under?_deepMerge value.valid hbase hsaid.gone
        · intro hlocated
          obtain ⟨content, hcontent⟩ := hsaid.read
          have hfile := mem_files_of_located hlocated hcontent
          have hfewer := card_unvisited_lt hfile hseen
          -- a file extends an absolute path
          have habsolute : parent.absolute = true := by
            cases hsaid with
            | child => exact absolute_parentPath hfile _
          have hrest := hlength (.inl habsolute)
          rw [List.length_cons]
          omega

end Loader

namespace Scenarios

/-! ## §7. A directory of three files. -/

def childFile : Path := ⟨true, ["sim", "child.yaml"]⟩
def baseFile : Path := ⟨true, ["sim", "base.yaml"]⟩
def loopFile : Path := ⟨true, ["sim", "loop.yaml"]⟩

def files : Finset Path := {childFile, baseFile, loopFile}

def names : Finset String :=
  {"sim", "child.yaml", "base.yaml", "loop.yaml", ".."}

/-- The path without its dots. -/
def resolve (p : Path) : Path :=
  ⟨p.absolute, p.components.foldl
    (fun cs c => if c = ".." then cs.dropLast else cs ++ [c]) []⟩

def canonicalize (p : Path) : Option Path :=
  if p.components.length ≤ 64 ∧ (∀ c ∈ p.components, c ∈ names)
      ∧ resolve p ∈ files then some (resolve p)
  else none

/-- One extends another next to it, and one itself by another spelling. -/
def readToString (p : Path) : Except String String :=
  match canonicalize p with
  | none => .error "No such file or directory (os error 2)"
  | some file =>
      if file = childFile then .ok "extends: base.yaml\n"
      else if file = loopFile then .ok "extends: ../sim/loop.yaml\n"
      else .ok "{}\n"

theorem canonicalize_spec {p file : Path} (h : canonicalize p = some file) :
    file ∈ files ∧ p.components.length ≤ 64
      ∧ ∀ c ∈ p.components, c ∈ names := by
  unfold canonicalize at h
  split at h
  next hp =>
    obtain rfl := Option.some.inj h
    exact ⟨hp.2.2, hp.1, hp.2.1⟩
  next => cases h

theorem canonicalize_of_read {p : Path} {content : String}
    (h : readToString p = .ok content) :
    ∃ file, canonicalize p = some file := by
  unfold readToString at h
  split at h
  next => cases h
  next file hfile => exact ⟨file, hfile⟩

def fileSystem : FileSystem where
  canonicalize := canonicalize
  readToString := readToString
  files := files
  names := names
  pathMax := 64
  canonicalize_idem p file h := by
    have hall : ∀ file ∈ files, canonicalize file = some file := by decide
    exact hall file (canonicalize_spec h).1
  canonicalize_of_read p content h := by
    obtain ⟨file, hfile⟩ := canonicalize_of_read h
    exact ⟨file, (canonicalize_spec hfile).1, hfile⟩
  file_below_root := by decide
  read_bounded p content h := by
    obtain ⟨file, hfile⟩ := canonicalize_of_read h
    exact (canonicalize_spec hfile).2

/-- What the parser makes of their texts. -/
def parse (content : String) : Except String (YamlValue String) :=
  if content = "extends: base.yaml\n" then
    .ok ⟨.mapping [("extends", .string "base.yaml")],
      .mapping (by decide) (by simpa using Yaml.Valid.string _)⟩
  else if content = "extends: ../sim/loop.yaml\n" then
    .ok ⟨.mapping [("extends", .string "../sim/loop.yaml")],
      .mapping (by decide) (by simpa using Yaml.Valid.string _)⟩
  else if content = "{}\n" then .ok .empty
  else .error "not one of the three"

theorem leads_eq {path baseDir file start : Path}
    (h : fileSystem.canonicalize path = some file)
    (hstart : Leads fileSystem baseDir path start) : start = file := by
  cases hstart with
  | canonical h' => exact Option.some.inj (h'.symm.trans h)
  | joined h' =>
      rw [h] at h'
      cases h'

/-- The next file of each, from any base directory. -/
theorem next_child (baseDir : Path) :
    nextFile fileSystem parse "extends" baseDir childFile = some baseFile :=
  rfl

theorem next_base (baseDir : Path) :
    nextFile fileSystem parse "extends" baseDir baseFile = none := rfl

theorem next_loop (baseDir : Path) :
    nextFile fileSystem parse "extends" baseDir loopFile = some loopFile :=
  rfl

theorem says_all {file : Path} (h : file ∈ files) :
    ∃ next value, Says fileSystem parse "extends" file next value := by
  have hread : ∀ file ∈ files,
      (readFile fileSystem parse "extends" file).toOption.isSome := by decide
  cases hnode : readFile fileSystem parse "extends" file with
  | error err =>
      have hfile := hread file h
      rw [hnode] at hfile
      cases hfile
  | ok node => exact ⟨node.1, node.2, says_of_readFile hnode⟩

/-- From a file the walk visits files, and they all say something. -/
theorem says_visited {baseDir start : Path} (h : start ∈ files) :
    ∀ file, Walk.Visits (nextFile fileSystem parse "extends" baseDir) ∅ start
        file →
      ∃ next value, Says fileSystem parse "extends" file next value := by
  have hnth : ∀ n file,
      Walk.nth (nextFile fileSystem parse "extends" baseDir) start n
        = some file → file ∈ files := by
    intro n
    induction n with
    | zero =>
        intro file hfile
        exact Option.some.inj hfile ▸ h
    | succ n ih =>
        intro file hfile
        obtain ⟨before, hbefore, hnext⟩ := Option.bind_eq_some_iff.mp hfile
        have hmem := ih before hbefore
        simp only [files, Finset.mem_insert, Finset.mem_singleton] at hmem
        rcases hmem with rfl | rfl | rfl
        · rw [next_child] at hnext
          rw [← Option.some.inj hnext]
          decide
        · rw [next_base] at hnext
          cases hnext
        · rw [next_loop] at hnext
          rw [← Option.some.inj hnext]
          decide
  rintro file ⟨n, hn, _⟩
  exact says_all (hnth n file hn)

end Scenarios

end ArgusManager.Sim
