import Mathlib.Data.List.Infix
import Mathlib.Logic.Function.Basic

/-!
# A directory with atomic renames

Names stand for files, and a file holds bytes whatever its name becomes. A process that dies leaves the
directory as it is. A power loss brings back the names of some moment since the last sync, and of a file
whatever was flushed and perhaps more. What holds at every moment a power loss can bring back is `Always`,
and each operation says what it keeps of it.
-/

namespace Directory

variable {Name : Type}

/-- The names of a moment, and the files they stand for. -/
abbrev Names (Name : Type) := Name → Option ℕ

structure Files (Name : Type) where
  current : Names Name
  /-- The moments since the last sync. -/
  earlier : List (Names Name)
  data : ℕ → List UInt8
  /-- What a power loss leaves of a file. -/
  flushed : ℕ → List UInt8
  /-- The number of files created so far. -/
  created : ℕ

inductive RenameError where
  | fileNotFound
  | pathAlreadyExists

namespace Files

def empty : Files Name where
  current := fun _ => none
  earlier := []
  data := fun _ => []
  flushed := fun _ => []
  created := 0

def read (fs : Files Name) (name : Name) : Option (List UInt8) :=
  (fs.current name).map fs.data

/-- New names, the old ones being a moment a power loss can bring back. -/
def change (fs : Files Name) (names : Names Name) : Files Name :=
  { fs with current := names, earlier := fs.current :: fs.earlier }

def append (fs : Files Name) (file : ℕ) (bytes : List UInt8) : Files Name :=
  { fs with data := Function.update fs.data file (fs.data file ++ bytes) }

def syncFile (fs : Files Name) (file : ℕ) : Files Name :=
  { fs with flushed := Function.update fs.flushed file (fs.data file) }

/-- The names reach the disk. -/
def sync (fs : Files Name) : Files Name :=
  { fs with earlier := [] }

section Update

variable [DecidableEq Name]

/-- A new, empty file under a name that stands for none. -/
def createExclusive (fs : Files Name) (name : Name) : Option (Files Name) :=
  match fs.current name with
  | some _ => none
  | none =>
    some
      { fs.change (Function.update fs.current name (some fs.created)) with
        data := Function.update fs.data fs.created []
        flushed := Function.update fs.flushed fs.created []
        created := fs.created + 1 }

def deleteFile (fs : Files Name) (name : Name) : Files Name :=
  fs.change (Function.update fs.current name none)

def renamed (names : Names Name) (source target : Name) (file : ℕ) : Names Name :=
  Function.update (Function.update names source none) target (some file)

def renamePreserve (fs : Files Name) (source target : Name) : Except RenameError (Files Name) :=
  match fs.current source with
  | none => .error .fileNotFound
  | some file =>
    match fs.current target with
    | some _ => .error .pathAlreadyExists
    | none => .ok (fs.change (renamed fs.current source target file))

def rename (fs : Files Name) (source target : Name) : Except RenameError (Files Name) :=
  match fs.current source with
  | none => .error .fileNotFound
  | some file => .ok (fs.change (renamed fs.current source target file))

end Update

inductive PowerLoss (fs : Files Name) : Files Name → Prop
  | lost {names : Names Name} (data : ℕ → List UInt8) (hnames : names ∈ fs.current :: fs.earlier)
    (hdata : ∀ file, fs.flushed file <+: data file ∧ data file <+: fs.data file) :
    PowerLoss fs { current := names, earlier := [], data := data, flushed := data, created := fs.created }

/-- At every moment a power loss can bring back. -/
def Always (fs : Files Name) (P : Names Name → Prop) : Prop :=
  ∀ names ∈ fs.current :: fs.earlier, P names

variable {fs fs' : Files Name} {P Q : Names Name → Prop}

theorem Always.current (h : fs.Always P) : P fs.current :=
  h fs.current List.mem_cons_self

theorem Always.mono (h : fs.Always P) (himp : ∀ names, P names → Q names) : fs.Always Q :=
  fun names hnames => himp names (h names hnames)

theorem Always.change (h : fs.Always P) {names : Names Name} (hnew : P names) : (fs.change names).Always P := by
  intro other hother
  cases List.mem_cons.1 hother with
  | inl heq =>
    rw [heq]
    exact hnew
  | inr hold => exact h other hold

theorem always_sync : fs.sync.Always P ↔ P fs.current := by
  constructor
  · intro h
    exact h.current
  · intro h names hnames
    rw [List.mem_singleton.1 hnames]
    exact h

theorem Always.powerLoss (h : fs.Always P) (hloss : PowerLoss fs fs') : fs'.Always P := by
  cases hloss with
  | @lost kept data hnames hdata =>
    intro names hmem
    rw [List.mem_singleton.1 hmem]
    exact h kept hnames

section Update

variable [DecidableEq Name]

theorem createExclusive_eq_some {name : Name} (h : fs.createExclusive name = some fs') :
    fs.current name = none ∧ fs' =
      { fs.change (Function.update fs.current name (some fs.created)) with
        data := Function.update fs.data fs.created []
        flushed := Function.update fs.flushed fs.created []
        created := fs.created + 1 } := by
  rw [createExclusive] at h
  cases hname : fs.current name with
  | some file =>
    rw [hname] at h
    cases h
  | none =>
    rw [hname] at h
    cases h
    exact ⟨rfl, rfl⟩

theorem createExclusive_of {name : Name} (h : fs.current name = none) :
    fs.createExclusive name = some
      { fs.change (Function.update fs.current name (some fs.created)) with
        data := Function.update fs.data fs.created []
        flushed := Function.update fs.flushed fs.created []
        created := fs.created + 1 } := by
  rw [createExclusive, h]

theorem renamePreserve_eq_ok {source target : Name} (h : fs.renamePreserve source target = .ok fs') :
    ∃ file, fs.current source = some file ∧ fs.current target = none ∧
      fs' = fs.change (renamed fs.current source target file) := by
  rw [renamePreserve] at h
  cases hsource : fs.current source with
  | none =>
    rw [hsource] at h
    cases h
  | some file =>
    cases htarget : fs.current target with
    | some other =>
      rw [hsource, htarget] at h
      cases h
    | none =>
      rw [hsource, htarget] at h
      cases h
      exact ⟨file, rfl, rfl, rfl⟩

theorem renamePreserve_of {source target : Name} {file : ℕ} (hsource : fs.current source = some file)
    (htarget : fs.current target = none) :
    fs.renamePreserve source target = .ok (fs.change (renamed fs.current source target file)) := by
  rw [renamePreserve, hsource, htarget]

theorem rename_eq_ok {source target : Name} (h : fs.rename source target = .ok fs') :
    ∃ file, fs.current source = some file ∧ fs' = fs.change (renamed fs.current source target file) := by
  rw [rename] at h
  cases hsource : fs.current source with
  | none =>
    rw [hsource] at h
    cases h
  | some file =>
    rw [hsource] at h
    cases h
    exact ⟨file, rfl, rfl⟩

theorem rename_of {source target : Name} {file : ℕ} (hsource : fs.current source = some file) :
    fs.rename source target = .ok (fs.change (renamed fs.current source target file)) := by
  rw [rename, hsource]

theorem renamed_target (names : Names Name) (source target : Name) (file : ℕ) :
    renamed names source target file target = some file :=
  Function.update_self _ _ _

theorem renamed_source {source target : Name} (hne : source ≠ target) (names : Names Name) (file : ℕ) :
    renamed names source target file source = none := by
  rw [renamed, Function.update_of_ne hne, Function.update_self]

theorem renamed_of_ne {name source target : Name} (hsource : name ≠ source) (htarget : name ≠ target)
    (names : Names Name) (file : ℕ) : renamed names source target file name = names name := by
  rw [renamed, Function.update_of_ne htarget, Function.update_of_ne hsource]

end Update

end Files

end Directory
