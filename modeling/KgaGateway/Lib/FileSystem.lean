import Mathlib.Data.Option.Basic
import Mathlib.Logic.Function.Basic
import Mathlib.Tactic.Common

/-!
# One directory of a POSIX file system

What processes see of a directory and its files, and what of it survives a
power loss. The two are independent. The content of a file becomes durable when
the file is synced, or at any other moment; until then anything may be found in
it. A change to the directory is queued and becomes durable at some later
moment, in the order of the changes. The directory itself may be new, and then
its own entry becomes durable at some later moment.

Files are numbered. A name is linked to a file; a file that no name is linked
to can still be open.
-/

namespace KgaGateway

universe u v

/-- A change to a directory. -/
inductive DirOp (Name : Type u) : Type u where
  /-- link a name to a file -/
  | link : Name → ℕ → DirOp Name
  /-- remove a name -/
  | unlink : Name → DirOp Name
  /-- move a file from one name to another, over whatever is there -/
  | rename : Name → Name → ℕ → DirOp Name

section DirOp

variable {Name : Type u} [DecidableEq Name]

/-- The directory after a change. -/
def DirOp.apply (entries : Name → Option ℕ) : DirOp Name → Name → Option ℕ
  | .link name ino => Function.update entries name (some ino)
  | .unlink name => Function.update entries name none
  | .rename source target ino =>
    Function.update (Function.update entries source none) target (some ino)

/-- The names a change is about. -/
def DirOp.names : DirOp Name → List Name
  | .link name _ => [name]
  | .unlink name => [name]
  | .rename source target _ => [source, target]

/-- A change is about its own names only. -/
theorem DirOp.apply_of_not_mem {entries : Name → Option ℕ} {op : DirOp Name} {name : Name}
    (h : name ∉ op.names) : op.apply entries name = entries name := by
  cases op with
  | link n ino =>
    simp only [names, List.mem_singleton] at h
    rw [apply, Function.update_of_ne h]
  | unlink n =>
    simp only [names, List.mem_singleton] at h
    rw [apply, Function.update_of_ne h]
  | rename source target ino =>
    simp only [names, List.mem_cons, List.not_mem_nil, or_false, not_or] at h
    rw [apply, Function.update_of_ne h.2, Function.update_of_ne h.1]

/-- The file a change links a name to. -/
def DirOp.file : DirOp Name → Option ℕ
  | .link _ ino => some ino
  | .unlink _ => none
  | .rename _ _ ino => some ino

/-- A link is an old one, or that of the change. -/
theorem DirOp.file_of_apply {entries : Name → Option ℕ} {op : DirOp Name} {name : Name} {ino : ℕ}
    (h : op.apply entries name = some ino) : entries name = some ino ∨ op.file = some ino := by
  cases op with
  | link n ino' =>
    rw [apply, Function.update_apply] at h
    split at h
    · exact Or.inr h
    · exact Or.inl h
  | unlink n =>
    rw [apply, Function.update_apply] at h
    split at h
    · cases h
    · exact Or.inl h
  | rename source target ino' =>
    rw [apply, Function.update_apply, Function.update_apply] at h
    split at h
    · exact Or.inr h
    · split at h
      · cases h
      · exact Or.inl h

end DirOp

/-- A directory and its files. -/
structure Disk (Name : Type u) (β : Type v) : Type (max u v) where
  /-- the directory is there -/
  isDir : Bool
  /-- what its names are linked to -/
  entries : Name → Option ℕ
  /-- what the files hold -/
  data : ℕ → List β
  /-- the first number not in use -/
  next : ℕ
  /-- the directory survives a power loss -/
  durableDir : Bool
  /-- the links that do -/
  durableEntries : Name → Option ℕ
  /-- the changes to the directory that are not durable yet, oldest first -/
  queue : List (DirOp Name)
  /-- what is found in the files after a power loss -/
  durableData : ℕ → List β
  /-- the file was not written to since it was synced -/
  synced : ℕ → Bool

namespace Disk

variable {Name : Type u} {β : Type v}

/-! ## What processes do -/

/-- `mkdir(exist_ok=True)`. -/
def mkdir (disk : Disk Name β) : Disk Name β := { disk with isDir := true }

/-- Change the directory: seen at once, durable later. -/
def change [DecidableEq Name] (disk : Disk Name β) (op : DirOp Name) : Disk Name β :=
  { disk with entries := op.apply disk.entries, queue := disk.queue ++ [op] }

/-- Create an empty file under a name that is not linked. -/
def create [DecidableEq Name] (disk : Disk Name β) (name : Name) : Disk Name β :=
  { disk.change (.link name disk.next) with
    data := Function.update disk.data disk.next []
    next := disk.next + 1
    durableData := Function.update disk.durableData disk.next []
    synced := Function.update disk.synced disk.next false }

/-- Write at the end of a file. -/
def append (disk : Disk Name β) (ino : ℕ) (content : List β) : Disk Name β :=
  { disk with
    data := Function.update disk.data ino (disk.data ino ++ content)
    synced := Function.update disk.synced ino false }

/-- `fsync` of a file. -/
def fsync (disk : Disk Name β) (ino : ℕ) : Disk Name β :=
  { disk with
    durableData := Function.update disk.durableData ino (disk.data ino)
    synced := Function.update disk.synced ino true }

/-- What a name reads as; `none` if it is not there. -/
def read (disk : Disk Name β) (name : Name) : Option (List β) :=
  (if disk.isDir then disk.entries name else none).map disk.data

/-! ## What the system does on its own -/

/-- Some of a file that was written to becomes durable. -/
def writeback (disk : Disk Name β) (ino : ℕ) (content : List β) : Disk Name β :=
  { disk with
    durableData :=
      if disk.synced ino then disk.durableData
      else Function.update disk.durableData ino content }

/-- The oldest change to the directory becomes durable. -/
def commit [DecidableEq Name] (disk : Disk Name β) : Disk Name β :=
  match disk.queue with
  | [] => disk
  | op :: rest => { disk with durableEntries := op.apply disk.durableEntries, queue := rest }

/-- The directory's own entry becomes durable. -/
def commitDir (disk : Disk Name β) : Disk Name β := { disk with durableDir := disk.isDir }

/-- The disk after a power loss and recovery. -/
def powerLoss (disk : Disk Name β) : Disk Name β :=
  -- without its own entry the directory is gone, and every link in it
  let entries := if disk.durableDir then disk.durableEntries else fun _ => none
  { isDir := disk.durableDir
    entries := entries
    data := disk.durableData
    next := disk.next
    durableDir := disk.durableDir
    durableEntries := entries
    queue := []
    durableData := disk.durableData
    synced := fun _ => true }

end Disk

/-! ## What stays -/

namespace Disk

variable {Name : Type u} {β : Type v}

/-- The file holds this content, and will after a power loss. -/
structure Holds (disk : Disk Name β) (ino : ℕ) (content : List β) : Prop where
  data : disk.data ino = content
  synced : disk.synced ino = true
  durable : disk.durableData ino = content

/-- The file has the content it had, and what was durable of it still is. -/
structure Keeps (disk disk' : Disk Name β) (ino : ℕ) : Prop where
  data : disk'.data ino = disk.data ino
  synced : disk.synced ino = true → disk'.synced ino = true
  durable : disk.synced ino = true → disk'.durableData ino = disk.durableData ino

/-- Every file a name is linked to, now or after the queued changes, is in use. -/
structure Linked (disk : Disk Name β) : Prop where
  entries : ∀ name ino, disk.entries name = some ino → ino < disk.next
  durable : ∀ name ino, disk.durableEntries name = some ino → ino < disk.next
  queue : ∀ op ∈ disk.queue, ∀ ino, op.file = some ino → ino < disk.next

variable {disk disk' : Disk Name β} {ino : ℕ}

theorem Holds.keeps {content : List β} (h : disk.Holds ino content) (hk : Keeps disk disk' ino) :
    disk'.Holds ino content where
  data := hk.data.trans h.data
  synced := hk.synced h.synced
  durable := (hk.durable h.synced).trans h.durable

theorem Keeps.refl : Keeps disk disk ino := ⟨rfl, id, fun _ => rfl⟩

@[simp] theorem isDir_mkdir : disk.mkdir.isDir = true := rfl

@[simp] theorem entries_mkdir : disk.mkdir.entries = disk.entries := rfl

theorem read_of_isDir (h : disk.isDir = true) (name : Name) :
    disk.read name = (disk.entries name).map disk.data := by
  rw [read, if_pos h]

theorem keeps_mkdir : Keeps disk disk.mkdir ino := ⟨rfl, id, fun _ => rfl⟩

theorem keeps_append {ino' : ℕ} (h : ino ≠ ino') (content : List β) :
    Keeps disk (disk.append ino' content) ino where
  data := Function.update_of_ne h ..
  synced hs := (Function.update_of_ne h ..).trans hs
  durable _ := rfl

theorem keeps_fsync {ino' : ℕ} (h : ino ≠ ino') : Keeps disk (disk.fsync ino') ino where
  data := rfl
  synced hs := (Function.update_of_ne h ..).trans hs
  durable _ := Function.update_of_ne h ..

theorem keeps_writeback (ino' : ℕ) (content : List β) :
    Keeps disk (disk.writeback ino' content) ino := by
  refine ⟨rfl, id, fun hs => ?_⟩
  rw [writeback]
  split
  · rfl
  · rename_i hdirty
    have hne : ino ≠ ino' := by
      rintro rfl
      exact hdirty hs
    exact Function.update_of_ne hne ..

theorem holds_fsync : (disk.fsync ino).Holds ino (disk.data ino) :=
  ⟨rfl, Function.update_self .., Function.update_self ..⟩

theorem entries_powerLoss_of_durable (h : disk.durableDir = true) :
    disk.powerLoss.entries = disk.durableEntries :=
  if_pos h

theorem entries_powerLoss_of_not_durable (h : disk.durableDir = false) (name : Name) :
    disk.powerLoss.entries name = none :=
  congrFun (if_neg (Bool.eq_false_iff.mp h)) name

theorem data_append_self (content : List β) :
    (disk.append ino content).data ino = disk.data ino ++ content :=
  Function.update_self ..

variable [DecidableEq Name]

theorem keeps_create (h : ino < disk.next) (name : Name) : Keeps disk (disk.create name) ino where
  data := Function.update_of_ne (Nat.ne_of_lt h) ..
  synced hs := (Function.update_of_ne (Nat.ne_of_lt h) ..).trans hs
  durable _ := Function.update_of_ne (Nat.ne_of_lt h) ..

theorem keeps_change (op : DirOp Name) : Keeps disk (disk.change op) ino :=
  ⟨rfl, id, fun _ => rfl⟩

theorem entries_create_self (name : Name) : (disk.create name).entries name = some disk.next :=
  Function.update_self ..

theorem entries_create_of_ne {name name' : Name} (h : name' ≠ name) :
    (disk.create name).entries name' = disk.entries name' :=
  Function.update_of_ne h ..

theorem entries_rename_target (source target : Name) (moved : ℕ) :
    (disk.change (.rename source target moved)).entries target = some moved :=
  Function.update_self ..

theorem entries_rename_source {source target : Name} (h : source ≠ target) (moved : ℕ) :
    (disk.change (.rename source target moved)).entries source = none :=
  (Function.update_of_ne h ..).trans (Function.update_self ..)

theorem entries_unlink_self (name : Name) : (disk.change (.unlink name)).entries name = none :=
  Function.update_self ..

/-- A change leaves the other names alone. -/
theorem entries_change_of_not_mem {op : DirOp Name} {name : Name} (h : name ∉ op.names) :
    (disk.change op).entries name = disk.entries name :=
  DirOp.apply_of_not_mem h

theorem data_create_self (name : Name) : (disk.create name).data disk.next = [] :=
  Function.update_self ..

/-- One change becomes durable, if there is one. -/
theorem commit_cases (disk : Disk Name β) : (disk.queue = [] ∧ disk.commit = disk) ∨
    ∃ op rest, disk.queue = op :: rest ∧ disk.commit =
      { disk with durableEntries := op.apply disk.durableEntries, queue := rest } := by
  rcases hqueue : disk.queue with _ | ⟨op, rest⟩
  · exact Or.inl ⟨rfl, by rw [commit, hqueue]⟩
  · exact Or.inr ⟨op, rest, rfl, by rw [commit, hqueue]⟩

theorem keeps_commit : Keeps disk disk.commit ino := by
  obtain ⟨-, h⟩ | ⟨op, rest, -, h⟩ := disk.commit_cases <;> rw [h]
  · exact .refl
  · exact ⟨rfl, id, fun _ => rfl⟩

/-- Processes do not see it. -/
@[simp] theorem entries_commit : disk.commit.entries = disk.entries := by
  obtain ⟨-, h⟩ | ⟨op, rest, -, h⟩ := disk.commit_cases <;> rw [h]

@[simp] theorem isDir_commit : disk.commit.isDir = disk.isDir := by
  obtain ⟨-, h⟩ | ⟨op, rest, -, h⟩ := disk.commit_cases <;> rw [h]

@[simp] theorem durableDir_commit : disk.commit.durableDir = disk.durableDir := by
  obtain ⟨-, h⟩ | ⟨op, rest, -, h⟩ := disk.commit_cases <;> rw [h]

/-! ## Numbers in use -/

theorem Linked.change (h : disk.Linked) {op : DirOp Name}
    (hop : ∀ ino, op.file = some ino → ino < disk.next) : (disk.change op).Linked where
  entries name ino hentry := (DirOp.file_of_apply hentry).elim (h.entries name ino) (hop ino)
  durable := h.durable
  queue op' hmem := by
    rcases List.mem_append.mp hmem with hmem | hmem
    · exact h.queue op' hmem
    · rw [List.mem_singleton.mp hmem]
      exact hop

theorem Linked.create (h : disk.Linked) (name : Name) : (disk.create name).Linked := by
  -- the new number is in use now
  have hgrown : ({ disk with next := disk.next + 1 } : Disk Name β).Linked :=
    ⟨fun n ino hn => Nat.lt_succ_of_lt (h.entries n ino hn),
      fun n ino hn => Nat.lt_succ_of_lt (h.durable n ino hn),
      fun op hop ino hino => Nat.lt_succ_of_lt (h.queue op hop ino hino)⟩
  have hchange := @Linked.change _ _ _ _ hgrown (.link name disk.next) fun ino hino => by
    obtain rfl := Option.some.inj hino
    exact Nat.lt_succ_self _
  exact ⟨hchange.entries, hchange.durable, hchange.queue⟩

theorem Linked.commit (h : disk.Linked) : disk.commit.Linked := by
  obtain ⟨-, hcommit⟩ | ⟨op, rest, hqueue, hcommit⟩ := disk.commit_cases <;> rw [hcommit]
  · exact h
  · refine ⟨h.entries, fun name ino hentry => ?_, fun op' hop' => h.queue op' ?_⟩
    · exact (DirOp.file_of_apply hentry).elim (h.durable name ino)
        (h.queue op (hqueue ▸ List.mem_cons_self ..) ino)
    · exact hqueue ▸ List.mem_cons_of_mem _ hop'

end Disk

end KgaGateway
