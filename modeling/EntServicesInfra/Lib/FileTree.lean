import Mathlib.Data.List.Induction
import Mathlib.Data.List.Nodup

/-!
# Directory trees

What a program sees of the files: which paths exist and what the directories list.  A path is
absolute and is given by its components.

* `FileSystem`    the two observations and how they belong together;
* `Node`          a finite tree of directories;
* `ofTree`        what is observed of such a tree.
-/

namespace FileTree

abbrev Name := List Char

abbrev Path := List Name

def dot : Name := ['.']

def dotdot : Name := ['.', '.']

/-- a name that stands for an entry of its own -/
def Ordinary (name : Name) : Prop :=
  name ≠ [] ∧ '/' ∉ name ∧ name ≠ dot ∧ name ≠ dotdot

instance (name : Name) : Decidable (Ordinary name) :=
  inferInstanceAs (Decidable (_ ∧ _))

structure FileSystem where
  accessible : Path → Bool
  /-- what is read of a directory, in the order of reading; nothing if it cannot be opened -/
  listing : Path → Option (List Name)
  nodup {path : Path} {names : List Name} : listing path = some names → names.Nodup
  ordinary {path : Path} {names : List Name} : listing path = some names →
    ∀ name ∈ names, name = dot ∨ name = dotdot ∨ Ordinary name
  /-- What exists in a directory is what is listed of it. -/
  entry_iff {path : Path} {name : Name} : Ordinary name →
    (accessible (path ++ [name]) ↔ ∃ names, listing path = some names ∧ name ∈ names)
  accessible_of_append {path rest : Path} : accessible (path ++ rest) → accessible path

/-! ## trees -/

inductive Node where
  | file
  | directory (entries : List (Name × Node))

/-- The names in a directory differ, and all of them are ordinary. -/
inductive Node.WellFormed : Node → Prop
  | file : WellFormed .file
  | directory {entries : List (Name × Node)} (hnodup : (entries.map Prod.fst).Nodup)
      (hordinary : ∀ entry ∈ entries, Ordinary entry.1)
      (hbelow : ∀ entry ∈ entries, entry.2.WellFormed) : WellFormed (.directory entries)

/-- One component further, from a directory and those it is in; the root is its own parent. -/
def enter : List Node → Name → Option (List Node)
  | .directory entries :: parents, name =>
    if name = [] ∨ name = dot then some (.directory entries :: parents)
    else if name = dotdot then
      some (if parents.isEmpty then [.directory entries] else parents)
    else (entries.lookup name).map fun node => node :: .directory entries :: parents
  | _, _ => none

def walk (root : Node) (path : Path) : Option (List Node) :=
  path.foldlM enter [root]

def names : List Node → Option (List Name)
  | .directory entries :: _ => some (dot :: dotdot :: entries.map Prod.fst)
  | _ => none

theorem walk_append (root : Node) (path rest : Path) :
    walk root (path ++ rest) = (walk root path).bind fun nodes => rest.foldlM enter nodes :=
  List.foldlM_append

variable {root : Node} {nodes : List Node} {name : Name}

theorem enter_wellFormed {nodes' : List Node} (h : ∀ node ∈ nodes, node.WellFormed)
    (henter : enter nodes name = some nodes') : ∀ node ∈ nodes', node.WellFormed := by
  match nodes with
  | [] => cases henter
  | .file :: _ => cases henter
  | .directory entries :: parents =>
    rw [enter] at henter
    split at henter
    · obtain rfl := Option.some.inj henter
      exact h
    · split at henter
      · obtain rfl := Option.some.inj henter
        obtain ⟨hhere, hparents⟩ := List.forall_mem_cons.mp h
        split
        · exact List.forall_mem_singleton.mpr hhere
        · exact hparents
      · obtain ⟨node, hnode, rfl⟩ := Option.map_eq_some_iff.mp henter
        obtain ⟨before, after, hentries, -⟩ := List.lookup_eq_some_iff.mp hnode
        refine List.forall_mem_cons.mpr ⟨?_, h⟩
        cases h _ List.mem_cons_self with
        | directory _ _ hbelow =>
          apply hbelow (name, node)
          rw [hentries]
          exact List.mem_append_right before List.mem_cons_self

theorem walk_wellFormed (hroot : root.WellFormed) {path : Path} (h : walk root path = some nodes) :
    ∀ node ∈ nodes, node.WellFormed := by
  induction path using List.reverseRecOn generalizing nodes with
  | nil =>
    obtain rfl := Option.some.inj h
    exact List.forall_mem_singleton.mpr hroot
  | append_singleton path name ih =>
    rw [walk_append] at h
    obtain ⟨nodes', hnodes', hlast⟩ := Option.bind_eq_some_iff.mp h
    rw [List.foldlM_cons] at hlast
    obtain ⟨nodes'', henter, hnil⟩ := Option.bind_eq_some_iff.mp hlast
    obtain rfl := Option.some.inj hnil
    exact enter_wellFormed (ih hnodes') henter

/-- An ordinary name is entered exactly if it is listed. -/
theorem enter_isSome_iff (hname : Ordinary name) :
    (enter nodes name).isSome ↔ ∃ listed, names nodes = some listed ∧ name ∈ listed := by
  obtain ⟨hempty, -, hdot, hdotdot⟩ := hname
  match nodes with
  | [] => exact ⟨nofun, fun ⟨_, h, _⟩ => nomatch h⟩
  | .file :: _ => exact ⟨nofun, fun ⟨_, h, _⟩ => nomatch h⟩
  | .directory entries :: parents =>
    rw [enter, if_neg (not_or.mpr ⟨hempty, hdot⟩), if_neg hdotdot, Option.isSome_map,
      List.lookup_isSome_iff]
    constructor
    · rintro ⟨entry, hentry, heq⟩
      refine ⟨_, rfl, List.mem_cons_of_mem _ (List.mem_cons_of_mem _ ?_)⟩
      rw [eq_of_beq heq]
      exact List.mem_map_of_mem hentry
    · rintro ⟨listed, hlisted, hmem⟩
      obtain rfl := Option.some.inj hlisted
      have hmem := ((List.mem_cons.mp hmem).resolve_left hdot)
      have hmem := ((List.mem_cons.mp hmem).resolve_left hdotdot)
      obtain ⟨entry, hentry, rfl⟩ := List.mem_map.mp hmem
      exact ⟨entry, hentry, beq_self_eq_true _⟩

theorem names_of_wellFormed (h : ∀ node ∈ nodes, node.WellFormed) {listed : List Name}
    (hnames : names nodes = some listed) :
    listed.Nodup ∧ ∀ name ∈ listed, name = dot ∨ name = dotdot ∨ Ordinary name := by
  match nodes with
  | [] => cases hnames
  | .file :: _ => cases hnames
  | .directory entries :: parents =>
    obtain rfl := Option.some.inj hnames
    cases h _ List.mem_cons_self with
    | directory hnodup hordinary _ =>
      have hentries : ∀ name ∈ entries.map Prod.fst, Ordinary name := by
        intro name hname
        obtain ⟨entry, hentry, rfl⟩ := List.mem_map.mp hname
        exact hordinary entry hentry
      constructor
      · refine List.nodup_cons.mpr ⟨?_, List.nodup_cons.mpr ⟨?_, hnodup⟩⟩
        · intro hdot
          rcases List.mem_cons.mp hdot with hdot | hdot
          · exact absurd hdot (by decide)
          · exact (hentries dot hdot).2.2.1 rfl
        · exact fun hdotdot => (hentries dotdot hdotdot).2.2.2 rfl
      · intro name hname
        rcases List.mem_cons.mp hname with rfl | hname
        · exact .inl rfl
        · rcases List.mem_cons.mp hname with rfl | hname
          · exact .inr (.inl rfl)
          · exact .inr (.inr (hentries name hname))

def ofTree (root : Node) (hroot : root.WellFormed) : FileSystem where
  accessible path := (walk root path).isSome
  listing path := (walk root path).bind names
  nodup h := by
    obtain ⟨nodes, hwalk, hnames⟩ := Option.bind_eq_some_iff.mp h
    exact (names_of_wellFormed (walk_wellFormed hroot hwalk) hnames).1
  ordinary h := by
    obtain ⟨nodes, hwalk, hnames⟩ := Option.bind_eq_some_iff.mp h
    exact (names_of_wellFormed (walk_wellFormed hroot hwalk) hnames).2
  entry_iff {path name} hname := by
    rw [walk_append]
    cases hwalk : walk root path with
    | none => exact ⟨nofun, fun ⟨_, h, _⟩ => nomatch h⟩
    | some nodes =>
      rw [Option.bind_some, Option.bind_some, List.foldlM_cons, ← enter_isSome_iff hname]
      cases enter nodes name <;> rfl
  accessible_of_append {path rest} h := by
    rw [walk_append] at h
    cases hwalk : walk root path with
    | none =>
      rw [hwalk] at h
      cases h
    | some nodes => rfl

end FileTree
