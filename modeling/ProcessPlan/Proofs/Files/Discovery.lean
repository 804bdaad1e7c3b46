import ProcessPlan.Files.Discovery
import ProcessPlan.Proofs.Files.Growth
import ProcessPlan.Proofs.Text

/-!
# One list of paths

The search for the configuration file has stages with conditions of their own: the directory for it
below another is only looked into if it is a directory, and the settings of the user only if there
is a place for them. None of these conditions shows in the result. A path is followed through
directories alone, so below what is no directory nothing exists that could be found, and the stages
are one list of paths of which the first that exists is taken. Whatever comes after it in the list,
and whatever is not on the list, makes no difference.

## Main definitions

* `FileSystem.configPaths`: the list of paths
* `FileSystem.searched`: the paths that count, which is a single one if the variable is set
* `FileSystem.IsFirst`: the first path of a list that exists

## Main results

* `Path.parts_join`: the parts of a path that leads on from a directory
* `FileSystem.isDirectory_of_contains_join`: only a directory is followed on
* `FileSystem.configBelow?_eq`: the condition on the directory below makes no difference
* `FileSystem.findConfigFrom_first`: the search takes the first path that exists
-/

namespace ProcessPlan

/-! ### Paths that lead on -/

namespace Path

variable {path : String}

theorem parts_append_slash (front back : String) :
    parts (front ++ "/" ++ back) = parts front ++ parts back := by
  have hchars : (front ++ "/" ++ back).toList = front.toList ++ '/' :: back.toList := by simp
  rw [parts, hchars, Text.pieces_append, List.filter_append, List.map_append]
  rfl

/-- A slash at the end of a path shows in none of its parts. -/
theorem exists_of_endsInSlash (h : endsInSlash path) :
    ∃ front, path = front ++ "/" ∧ parts path = parts front := by
  rw [endsInSlash, beq_iff_eq] at h
  obtain ⟨chars, hchars⟩ := List.getLast?_eq_some_iff.1 h
  have hpath : path = String.ofList chars ++ "/" := by
    refine String.toList_inj.1 ?_
    rw [hchars]
    simp
  refine ⟨.ofList chars, hpath, ?_⟩
  calc parts path = parts (String.ofList chars ++ "/" ++ "") := by rw [hpath, String.append_empty]
    _ = parts (.ofList chars) := by
        rw [parts_append_slash]
        exact List.append_nil _

/-- A path that leads on has the parts of both. -/
theorem parts_join (base path : String) : parts (join base path) = parts base ++ parts path := by
  rw [join]
  split
  · next h =>
    rcases Bool.or_eq_true_iff.1 h with hempty | hslash
    · rw [String.isEmpty_iff.1 hempty, String.empty_append]
      rfl
    · obtain ⟨front, rfl, hparts⟩ := exists_of_endsInSlash hslash
      rw [hparts, parts_append_slash]
  · exact parts_append_slash base path

theorem exists_join_eq (base path : String) : ∃ rest, join base path = base ++ rest := by
  rw [join]
  split
  · exact ⟨path, rfl⟩
  · exact ⟨"/" ++ path, String.append_assoc⟩

theorem join_ne_empty (base : String) (h : path ≠ "") : join base path ≠ "" := by
  rw [join]
  split <;> simp [h]

end Path

namespace FileSystem

variable {fs fs' : FileSystem} {env : Environment} {base directory path : String}
  {location : Location}

/-! ### What exists -/

theorem contains_iff : fs.contains path ↔ ∃ node, fs.node path = .ok node := by
  unfold contains
  cases fs.node path <;> simp

theorem isDirectory_iff : fs.isDirectory path ↔ fs.node path = .ok .directory := by
  unfold isDirectory
  split <;> simp_all

theorem start_eq_ok_iff : fs.start path = .ok location ↔
    '\x00' ∉ path.toList ∧ path ≠ "" ∧ path.utf8ByteSize < pathLimit ∧
      location = if Path.isAbsolute path then [] else fs.workDirectory := by
  unfold start
  generalize (if Path.isAbsolute path then [] else fs.workDirectory) = first
  split_ifs with hnul hempty hlong
  · simp_all
  · simp_all
  · refine iff_of_false nofun ?_
    rintro ⟨-, -, hshort, -⟩
    omega
  · constructor
    · intro h
      exact ⟨by simpa using hnul, by simpa using hempty, by omega, (Except.ok.inj h).symm⟩
    · rintro ⟨-, -, -, rfl⟩
      rfl

/-- A path that leads on starts where the path does that it leads on from. -/
theorem start_of_append {rest : String} (hbase : base ≠ "")
    (h : fs.start (base ++ rest) = .ok location) : fs.start base = .ok location := by
  have hfirst : Path.isAbsolute (base ++ rest) = Path.isAbsolute base := by
    obtain ⟨c, cs, hchars⟩ := List.exists_cons_of_ne_nil (mt String.toList_eq_nil_iff.1 hbase)
    simp [Path.isAbsolute, hchars]
  rw [start_eq_ok_iff, String.toList_append, List.mem_append, not_or, String.utf8ByteSize_append,
    hfirst] at h
  obtain ⟨⟨hnul, -⟩, -, hlong, hlocation⟩ := h
  exact start_eq_ok_iff.2 ⟨hnul, hbase, by omega, hlocation⟩

/-- Only a directory is followed on. -/
theorem isDirectory_of_contains_join {name : String} (hbase : base ≠ "")
    (hname : Path.parts name ≠ []) (h : fs.contains (Path.join base name)) :
    fs.isDirectory base := by
  obtain ⟨node, hnode⟩ := contains_iff.1 h
  obtain ⟨target, hlocate, -⟩ := node_eq_ok_iff.1 hnode
  obtain ⟨first, hstart, hwalk⟩ := bind_eq_ok_iff.1 hlocate
  have hfirst : fs.start base = .ok first := by
    obtain ⟨rest, hrest⟩ := Path.exists_join_eq base name
    exact start_of_append hbase (hrest ▸ hstart)
  -- The walk goes through the location of the base and takes at least one step from there.
  obtain ⟨part, parts, hparts⟩ := List.exists_cons_of_ne_nil hname
  rw [Path.parts_join, hparts, List.append_assoc, walk_append] at hwalk
  obtain ⟨middle, hmiddle, hrest⟩ := bind_eq_ok_iff.1 hwalk
  obtain ⟨next, hstep, -⟩ := bind_eq_ok_iff.1 hrest
  have hdirectory : fs.find? middle = some .directory := (step_eq_ok_iff.1 hstep).1
  have hlocated : fs.locate base = .ok middle := by
    refine bind_eq_ok_iff.2 ⟨first, hfirst, ?_⟩
    rw [walk_append, hmiddle]
    show fs.walk middle _ = _
    split
    · exact bind_eq_ok_iff.2 ⟨middle, step_eq_ok_iff.2 ⟨hdirectory, by rw [if_pos rfl]⟩, rfl⟩
    · rfl
  exact isDirectory_iff.2 (node_eq_ok_iff.2 ⟨middle, hlocated, hdirectory⟩)

/-! ### The list of paths -/

theorem parts_ne_nil_of_mem_configNames {name : String} (h : name ∈ configNames) :
    Path.parts name ≠ [] := by
  have hall : ∀ name ∈ configNames, Path.parts name ≠ [] := by decide +kernel
  exact hall name h

/-- Where there is no directory below, there is no configuration file in it either. -/
theorem configBelow?_eq (fs : FileSystem) (directory : String) :
    fs.configBelow? directory = fs.configIn? (Path.join directory ".procflow") := by
  show (if fs.isDirectory (Path.join directory ".procflow") then _ else none) = _
  split
  · rfl
  · next hno =>
    rw [eq_comm, configIn?, List.find?_eq_none]
    intro path hpath hexists
    obtain ⟨name, hname, rfl⟩ := List.mem_map.1 hpath
    exact hno (isDirectory_of_contains_join (Path.join_ne_empty directory (by decide))
      (parts_ne_nil_of_mem_configNames hname) hexists)

/-- The paths where a configuration file is looked for if the variable is not set, the first before
the others. -/
def configPaths (env : Environment) (directory : String) : List String :=
  let below := Path.join directory ".procflow"
  [Path.join directory "procflow.local.kdl", Path.join directory ".procflow.local.kdl",
    Path.join directory "procflow.kdl", Path.join directory ".procflow.kdl",
    Path.join below "procflow.local.kdl", Path.join below ".procflow.local.kdl",
    Path.join below "procflow.kdl", Path.join below ".procflow.kdl"] ++
  (env.settingsDirectory?.map fun settings =>
    Path.join (Path.join settings "procflow") "procflow.kdl").toList

/-- The paths that count: that of the variable alone, if it is set. -/
def searched (env : Environment) (directory : String) : List String :=
  match env.configPath with
  | some path => [path]
  | none => configPaths env directory

/-- The stages of the search are one search in the list. -/
theorem find?_configPaths (fs : FileSystem) (env : Environment) (directory : String) :
    (configPaths env directory).find? fs.contains
      = ((fs.configIn? directory).or (fs.configBelow? directory)).or (fs.configOfUser? env) := by
  have hpaths : configPaths env directory = configNames.map (Path.join directory) ++
      configNames.map (Path.join (Path.join directory ".procflow")) ++
      (env.configDirectory?.map fun directory => Path.join directory configName).toList := by
    rw [Environment.configDirectory?, Option.map_map]
    rfl
  have huser (o : Option String) : o.toList.find? fs.contains = o.filter fs.contains := by
    cases o with
    | none => rfl
    | some path => simp [Option.filter]
  rw [hpaths, List.find?_append, List.find?_append, huser, configBelow?_eq]
  rfl

/-- The fault if none of the paths that count exists. -/
def noConfigFault (env : Environment) : DiscoveryFault :=
  match env.configPath with
  | some path => .missing path
  | none => .noConfig

theorem findConfigFrom_eq (fs : FileSystem) (env : Environment) (directory : String) :
    fs.findConfigFrom env directory
      = ((searched env directory).find? fs.contains).elim (.error (noConfigFault env)) .ok := by
  rw [findConfigFrom, searched, noConfigFault]
  cases env.configPath with
  | some path => by_cases h : fs.contains path <;> simp [h]
  | none =>
    rw [find?_configPaths]
    generalize ((fs.configIn? directory).or _).or _ = found
    cases found <;> rfl

/-- A path of a list that exists while none before it does. -/
def IsFirst (fs : FileSystem) (paths : List String) (path : String) : Prop :=
  ∃ before after, paths = before ++ path :: after ∧ fs.contains path ∧
    ∀ earlier ∈ before, ¬ fs.contains earlier

theorem find?_contains_eq_some_iff {paths : List String} :
    paths.find? fs.contains = some path ↔ fs.IsFirst paths path := by
  rw [List.find?_eq_some_iff_append]
  simp only [IsFirst, Bool.not_eq_true', Bool.not_eq_true]
  constructor
  · rintro ⟨hexists, before, after, hpaths, hearlier⟩
    exact ⟨before, after, hpaths, hexists, hearlier⟩
  · rintro ⟨before, after, hpaths, hexists, hearlier⟩
    exact ⟨hexists, before, after, hpaths, hearlier⟩

theorem findConfigFrom_eq_ok_iff : fs.findConfigFrom env directory = .ok path ↔
    fs.IsFirst (searched env directory) path := by
  rw [findConfigFrom_eq, ← find?_contains_eq_some_iff]
  cases (searched env directory).find? fs.contains <;> simp

theorem findConfigFrom_eq_error_iff {fault : DiscoveryFault} :
    fs.findConfigFrom env directory = .error fault ↔
      fault = noConfigFault env ∧ ∀ path ∈ searched env directory, ¬ fs.contains path := by
  rw [findConfigFrom_eq, ← List.find?_eq_none]
  cases (searched env directory).find? fs.contains <;> simp [eq_comm]

/-- The same paths of a list exist in two file systems. -/
def AgreeOn (fs fs' : FileSystem) (paths : List String) : Prop :=
  ∀ path ∈ paths, fs'.contains path = fs.contains path

theorem AgreeOn.find?_eq {paths : List String} (h : fs.AgreeOn fs' paths) :
    paths.find? fs'.contains = paths.find? fs.contains := by
  induction paths with
  | nil => rfl
  | cons first rest ih =>
    obtain ⟨hfirst, hrest⟩ := List.forall_mem_cons.1 h
    rw [List.find?_cons, List.find?_cons, hfirst, ih hrest]

/-- What comes after the path that is found makes no difference. -/
theorem AgreeOn.isFirst {before after : List String}
    (h : fs.IsFirst (before ++ path :: after) path) (hagree : fs.AgreeOn fs' (before ++ [path])) :
    fs'.IsFirst (before ++ path :: after) path := by
  rw [← find?_contains_eq_some_iff, List.append_cons, List.find?_append] at h ⊢
  rw [hagree.find?_eq]
  cases hfound : (before ++ [path]).find? fs.contains with
  | some found =>
    rw [hfound, Option.some_or] at h
    rw [Option.some_or, h]
  | none =>
    rw [hfound, Option.none_or] at h
    exact absurd (List.find?_some h) (List.find?_eq_none.1 hfound path (by simp))

/-- **The search for a configuration file.** If the variable is set, the path that it names is found
if it exists, and is missing otherwise. If it is not, the first path of the list that exists is
found, and the fault is that there is none exactly if none of them exists. In a file system where
the same paths exist up to the one that is found, and in one where none of the paths that count
exists either, the result is the same. -/
theorem findConfigFrom_first (fs : FileSystem) (env : Environment) (directory : String) :
    (∀ path, env.configPath = some path →
      fs.findConfigFrom env directory
        = if fs.contains path then .ok path else .error (.missing path)) ∧
    (env.configPath = none →
      (∀ path, fs.findConfigFrom env directory = .ok path ↔
        fs.IsFirst (configPaths env directory) path) ∧
      ∀ fault, fs.findConfigFrom env directory = .error fault ↔
        fault = .noConfig ∧ ∀ path ∈ configPaths env directory, ¬ fs.contains path) ∧
    (∀ fs' path before after, fs.findConfigFrom env directory = .ok path →
      searched env directory = before ++ path :: after → fs.AgreeOn fs' (before ++ [path]) →
        fs'.findConfigFrom env directory = .ok path) ∧
    ∀ fs' fault, fs.findConfigFrom env directory = .error fault →
      fs.AgreeOn fs' (searched env directory) →
        fs'.findConfigFrom env directory = .error fault := by
  refine ⟨fun path hset => ?_, fun hunset => ⟨fun path => ?_, fun fault => ?_⟩, ?_, ?_⟩
  · rw [findConfigFrom, hset]
  · rw [findConfigFrom_eq_ok_iff, searched, hunset]
  · rw [findConfigFrom_eq_error_iff, searched, noConfigFault, hunset]
  · intro fs' path before after hfound hsearched hagree
    rw [findConfigFrom_eq_ok_iff, hsearched] at hfound ⊢
    exact hagree.isFirst hfound
  · intro fs' fault hfault hagree
    rw [findConfigFrom_eq_error_iff] at hfault ⊢
    refine ⟨hfault.1, fun path hpath => ?_⟩
    rw [hagree path hpath]
    exact hfault.2 path hpath

/-- A file system with a configuration file in the directory for it and one among the settings. -/
def sheltered : FileSystem where
  nodes :=
    [(["work"], .directory), (["work", ".procflow"], .directory),
      (["work", ".procflow", "procflow.kdl"], .file .empty), (["etc"], .directory),
      (["etc", "procflow"], .directory), (["etc", "procflow", "procflow.kdl"], .file .empty)]
  workDirectory := ["work"]

/-- Only the directory with the settings is set. -/
def settled : Environment := ⟨none, none, some "/etc", none⟩

/-- The one in the directory is found, also where there are no settings and one more file comes
after it. -/
theorem findConfigFrom_sheltered :
    sheltered.IsFirst (configPaths settled "/work") "/work/.procflow/procflow.kdl" ∧
    ((sheltered.remove ["etc"]).put ["work", ".procflow", ".procflow.kdl"]
      (.file .empty)).findConfigFrom settled "/work" = .ok "/work/.procflow/procflow.kdl" := by
  obtain ⟨-, hunset, hagree, -⟩ := findConfigFrom_first sheltered settled "/work"
  have hpaths : configPaths settled "/work" = (configPaths settled "/work").take 6 ++
      "/work/.procflow/procflow.kdl" :: (configPaths settled "/work").drop 7 := by decide +kernel
  have hfirst : sheltered.IsFirst (configPaths settled "/work") "/work/.procflow/procflow.kdl" :=
    ⟨_, _, hpaths, by decide +kernel, by decide +kernel⟩
  refine ⟨hfirst, hagree _ _ _ _ (((hunset rfl).1 _).2 hfirst) hpaths ?_⟩
  show ∀ path ∈ _, _
  decide +kernel

end FileSystem

end ProcessPlan
