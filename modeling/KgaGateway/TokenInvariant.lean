import KgaGateway.Lib.Register
import KgaGateway.TokenStore

/-!
# The token store refines a register

What the directory holds, under all interleavings, failures and kills, is a
register whose versions are the tokens that were moved to the target, each with
its file. The rename of a `save` pushes a version; a change to the directory
that becomes durable may settle one; every other step leaves the register as it
is (`Inv.step`).

The invariant behind it is about files. A version's file is complete, synced,
and nobody writes to it any more; every `save` under way has a file of its own,
linked to its temporary name.
-/

namespace KgaGateway

/-! ## One step of a save -/

/-- The moves of a `save`: the disk and the place after the operation. -/
inductive SaveMove (store : TokenStore) (token : Token) (disk : Disk String Char) :
    SavePc → SaveOp → Disk String Char → SavePc → Prop where
  | mkdir : SaveMove store token disk .idle .mkdir disk.mkdir .made
  | mkstemp {random : String} : disk.isDir = true →
      disk.entries (tempName store.name random) = none →
      SaveMove store token disk .made (.mkstemp random) (disk.create (tempName store.name random))
        (.opened (tempName store.name random) disk.next)
  | fdopen {tmp : String} {ino : ℕ} :
      SaveMove store token disk (.opened tmp ino) .fdopen disk (.writing tmp ino (serialise token))
  | write {tmp : String} {ino n : ℕ} {rest : List Char} :
      SaveMove store token disk (.writing tmp ino rest) (.write n) (disk.append ino (rest.take n))
        (.writing tmp ino (rest.drop n))
  | flush {tmp : String} {ino : ℕ} :
      SaveMove store token disk (.writing tmp ino []) .flush disk (.flushed tmp ino)
  | fsync {tmp : String} {ino : ℕ} :
      SaveMove store token disk (.flushed tmp ino) .fsync (disk.fsync ino) (.synced tmp ino)
  | close {tmp : String} {ino : ℕ} :
      SaveMove store token disk (.synced tmp ino) .close disk (.closed tmp ino)
  | replace {tmp : String} {ino ino' : ℕ} : disk.entries tmp = some ino' →
      SaveMove store token disk (.closed tmp ino) .replace
        (disk.change (.rename tmp store.name ino')) (.returned ino')
  | writeUnwinding {tmp : String} {ino n : ℕ} {rest : List Char} :
      SaveMove store token disk (.unwinding tmp ino rest) (.write n)
        (disk.append ino (rest.take n)) (.unwinding tmp ino (rest.drop n))
  | closeUnwinding {tmp : String} {ino : ℕ} {rest : List Char} :
      SaveMove store token disk (.unwinding tmp ino rest) .close disk (.cleanup tmp ino)
  | unlink {tmp : String} {ino ino' : ℕ} : disk.entries tmp = some ino' →
      SaveMove store token disk (.cleanup tmp ino) .unlink (disk.change (.unlink tmp)) .raised
  | unlinkGone {tmp : String} {ino : ℕ} : disk.entries tmp = none →
      SaveMove store token disk (.cleanup tmp ino) .unlink disk .raised
  | fail {pc pc' : SavePc} : pc.fail = some pc' → SaveMove store token disk pc .fail disk pc'
  | kill {pc : SavePc} : pc.ended = false → SaveMove store token disk pc .kill disk .killed

/-- Inversion: a step of a `save` is one of its moves. -/
theorem move_of_saveStep {store : TokenStore} {token : Token} {disk disk' : Disk String Char}
    {pc pc' : SavePc} {op : SaveOp}
    (h : store.saveStep token disk pc op = some (disk', pc')) :
    SaveMove store token disk pc op disk' pc' := by
  unfold TokenStore.saveStep at h
  split at h
  · cases h
    exact .mkdir
  · split at h
    · rename_i hfree
      obtain ⟨hdir, hnone⟩ := Bool.and_eq_true_iff.mp hfree
      cases h
      exact .mkstemp hdir (Option.isNone_iff_eq_none.mp hnone)
    · cases h
  · cases h
    exact .fdopen
  · cases h
    exact .write
  · cases h
    exact .flush
  · cases h
    exact .fsync
  · cases h
    exact .close
  · split at h
    · rename_i hentry
      cases h
      exact .replace hentry
    · cases h
  · cases h
    exact .writeUnwinding
  · cases h
    exact .closeUnwinding
  · split at h
    · rename_i hentry
      cases h
      exact .unlink hentry
    · rename_i hentry
      cases h
      exact .unlinkGone hentry
  · obtain ⟨pc'', hfail, heq⟩ := Option.map_eq_some_iff.mp h
    cases heq
    exact .fail hfail
  · split at h
    · cases h
    · rename_i hended
      cases h
      exact .kill (Bool.eq_false_iff.mpr hended)
  · cases h

/-! ## The directory and the register -/

/-- A version: a file and the token it holds. -/
abbrev Version : Type := ℕ × Token

/-- The file a change moves to this name. -/
def movedTo (name : String) : DirOp String → Option ℕ
  | .rename _ target ino => if target = name then some ino else none
  | _ => none

/-- The directory represents the register. -/
structure Represents (store : TokenStore) (r : Register Version) (disk : Disk String Char) :
    Prop where
  /-- the target is linked to the current version -/
  target : disk.entries store.name = r.current.map Prod.fst
  /-- durably, to the last one that has settled -/
  durable : disk.durableEntries store.name = r.recovered.map Prod.fst
  /-- the queued changes of the target are the pending versions -/
  queued : disk.queue.filterMap (movedTo store.name) = r.pending.map Prod.fst
  /-- no other queued change is about the target -/
  named : ∀ op ∈ disk.queue, movedTo store.name op = none → store.name ∉ op.names
  used : ∀ file ino, disk.entries file = some ino → ino < disk.next
  /-- the file of a version holds its token -/
  held : ∀ p ∈ r.versions, p.1 < disk.next ∧ disk.Holds p.1 (serialise p.2)
  isDir : disk.isDir = false → r.versions = []

namespace Represents

variable {store : TokenStore} {r : Register Version} {disk disk' : Disk String Char}

/-- What opening the target finds. -/
theorem lookup (h : Represents store r disk) :
    (if disk.isDir then disk.entries store.name else none) = r.current.map Prod.fst := by
  cases hdir : disk.isDir with
  | true => rw [if_pos rfl, h.target]
  | false => rw [if_neg Bool.false_ne_true, Register.current, h.isDir hdir, List.getLast?_nil,
      Option.map_none]

/-- A step that leaves the directory and the files of the versions alone. -/
theorem keep (h : Represents store r disk) (hentries : disk'.entries = disk.entries)
    (hdurable : disk'.durableEntries = disk.durableEntries) (hqueue : disk'.queue = disk.queue)
    (hnext : disk'.next = disk.next) (hdir : disk.isDir = true → disk'.isDir = true)
    (hkeep : ∀ p ∈ r.versions, disk.Keeps disk' p.1) : Represents store r disk' where
  target := hentries ▸ h.target
  durable := hdurable ▸ h.durable
  queued := hqueue ▸ h.queued
  named := hqueue ▸ h.named
  used := hentries ▸ hnext ▸ h.used
  held p hp := ⟨hnext ▸ (h.held p hp).1, (h.held p hp).2.keeps (hkeep p hp)⟩
  isDir hfalse := h.isDir <| by
    by_contra htrue
    rw [hdir (Bool.not_eq_false _ ▸ htrue)] at hfalse
    cases hfalse

theorem mkdir (h : Represents store r disk) : Represents store r disk.mkdir :=
  h.keep rfl rfl rfl rfl (fun _ => rfl) fun _ _ => Disk.keeps_mkdir

theorem append (h : Represents store r disk) {ino : ℕ} (hino : ∀ p ∈ r.versions, p.1 ≠ ino)
    (content : List Char) : Represents store r (disk.append ino content) :=
  h.keep rfl rfl rfl rfl id fun p hp => Disk.keeps_append (hino p hp) content

theorem fsync (h : Represents store r disk) {ino : ℕ} (hino : ∀ p ∈ r.versions, p.1 ≠ ino) :
    Represents store r (disk.fsync ino) :=
  h.keep rfl rfl rfl rfl id fun p hp => Disk.keeps_fsync (hino p hp)

theorem writeback (h : Represents store r disk) (ino : ℕ) (content : List Char) :
    Represents store r (disk.writeback ino content) :=
  h.keep rfl rfl rfl rfl id fun _ _ => Disk.keeps_writeback ino content

theorem commitDir (h : Represents store r disk) : Represents store r disk.commitDir :=
  h.keep rfl rfl rfl rfl id fun _ _ => ⟨rfl, id, fun _ => rfl⟩

theorem movedTo_of_not_mem {name : String} {op : DirOp String} (h : name ∉ op.names) :
    movedTo name op = none := by
  cases op with
  | rename source target ino =>
    apply if_neg
    rintro rfl
    exact h (by simp [DirOp.names])
  | link | unlink => rfl

/-- A change of another name. -/
theorem change (h : Represents store r disk) {op : DirOp String} (hname : store.name ∉ op.names)
    (hentries : disk'.entries = op.apply disk.entries)
    (hdurable : disk'.durableEntries = disk.durableEntries)
    (hqueue : disk'.queue = disk.queue ++ [op]) (hnext : disk.next ≤ disk'.next)
    (hdir : disk'.isDir = disk.isDir) (hkeep : ∀ p ∈ r.versions, disk.Keeps disk' p.1)
    (hused : ∀ file ino, disk'.entries file = some ino → ino < disk'.next) :
    Represents store r disk' where
  target := by rw [hentries, DirOp.apply_of_not_mem hname, h.target]
  durable := hdurable ▸ h.durable
  queued := by
    rw [hqueue, List.filterMap_append, h.queued]
    simp [movedTo_of_not_mem hname]
  named op' hop' hmoved := by
    rw [hqueue] at hop'
    rcases List.mem_append.mp hop' with hop' | hop'
    · exact h.named op' hop' hmoved
    · rwa [List.mem_singleton.mp hop']
  used := hused
  held p hp :=
    ⟨Nat.lt_of_lt_of_le (h.held p hp).1 hnext, (h.held p hp).2.keeps (hkeep p hp)⟩
  isDir hfalse := h.isDir (hdir ▸ hfalse)

theorem create (h : Represents store r disk) {name : String} (hname : name ≠ store.name) :
    Represents store r (disk.create name) := by
  have hop : store.name ∉ (DirOp.link name disk.next).names := by
    simpa [DirOp.names] using Ne.symm hname
  refine h.change hop rfl rfl rfl (Nat.le_succ _) rfl
    (fun p hp => Disk.keeps_create (h.held p hp).1 name) fun file ino hfile => ?_
  rcases eq_or_ne file name with rfl | hne
  · rw [Disk.entries_create_self] at hfile
    cases hfile
    exact Nat.lt_succ_self _
  · rw [Disk.entries_create_of_ne hne] at hfile
    exact Nat.lt_succ_of_lt (h.used file ino hfile)

theorem unlink (h : Represents store r disk) {name : String} (hname : name ≠ store.name) :
    Represents store r (disk.change (.unlink name)) := by
  have hop : store.name ∉ (DirOp.unlink name).names := by
    simpa [DirOp.names] using Ne.symm hname
  refine h.change hop rfl rfl rfl le_rfl rfl (fun _ _ => Disk.keeps_change _)
    fun file ino hfile => ?_
  rcases eq_or_ne file name with rfl | hne
  · rw [Disk.entries_unlink_self] at hfile
    cases hfile
  · rw [Disk.entries_change_of_not_mem (by simpa [DirOp.names] using hne)] at hfile
    exact h.used file ino hfile

/-- The rename of a `save` pushes a version. -/
theorem rename (h : Represents store r disk) {tmp : String} {ino : ℕ} {token : Token}
    (htmp : tmp ≠ store.name) (hentry : disk.entries tmp = some ino)
    (hholds : disk.Holds ino (serialise token)) (hdir : disk.isDir = true) :
    Represents store (r.push (ino, token)) (disk.change (.rename tmp store.name ino)) where
  target := by rw [Disk.entries_rename_target, Register.current_push, Option.map_some]
  durable := h.durable
  queued := by
    rw [Disk.change, List.filterMap_append, h.queued]
    simp [movedTo, Register.push]
  named op' hop' hmoved := by
    rcases List.mem_append.mp hop' with hop' | hop'
    · exact h.named op' hop' hmoved
    · rw [List.mem_singleton.mp hop'] at hmoved
      simp [movedTo] at hmoved
  used file ino' hfile := by
    have hino := h.used tmp ino hentry
    rcases eq_or_ne file store.name with rfl | hne
    · rw [Disk.entries_rename_target] at hfile
      cases hfile
      exact hino
    · rcases eq_or_ne file tmp with rfl | hne'
      · rw [Disk.entries_rename_source htmp] at hfile
        cases hfile
      · rw [Disk.entries_change_of_not_mem (by simp [DirOp.names, hne, hne'])] at hfile
        exact h.used file ino' hfile
  held p hp := by
    rw [Register.versions_push] at hp
    rcases List.mem_append.mp hp with hp | hp
    · exact ⟨(h.held p hp).1, (h.held p hp).2.keeps (Disk.keeps_change _)⟩
    · rw [List.mem_singleton.mp hp]
      exact ⟨h.used tmp ino hentry, hholds.keeps (Disk.keeps_change _)⟩
  isDir hfalse := by
    rw [Disk.change, hdir] at hfalse
    cases hfalse

/-- A queued change of another name becomes durable. -/
theorem commit_other (h : Represents store r disk) {op : DirOp String} {rest : List (DirOp String)}
    (hqueue : disk.queue = op :: rest) (hmoved : movedTo store.name op = none) :
    Represents store r
      { disk with durableEntries := op.apply disk.durableEntries, queue := rest } := by
  have hqueued := h.queued
  have hnamed := h.named
  rw [hqueue, List.filterMap_cons_none hmoved] at hqueued
  rw [hqueue] at hnamed
  have hnot := hnamed op (List.mem_cons_self ..) hmoved
  exact { h with
    durable := (DirOp.apply_of_not_mem hnot).trans h.durable
    queued := hqueued
    named := fun op' hop' => hnamed op' (List.mem_cons_of_mem _ hop')
    held := fun p hp => ⟨(h.held p hp).1, (h.held p hp).2.keeps ⟨rfl, id, fun _ => rfl⟩⟩ }

theorem apply_of_movedTo {name : String} {op : DirOp String} {ino : ℕ}
    (h : movedTo name op = some ino) (entries : String → Option ℕ) :
    op.apply entries name = some ino := by
  cases op with
  | rename source target ino' =>
    rw [movedTo] at h
    split at h
    · rename_i htarget
      rw [htarget, ← Option.some.inj h]
      exact Function.update_self ..
    · cases h
  | link | unlink => cases h

/-- A queued move to the target becomes durable: the oldest pending version
settles. -/
theorem commit_moved (h : Represents store r disk) {op : DirOp String} {rest : List (DirOp String)}
    {ino : ℕ} (hqueue : disk.queue = op :: rest) (hmoved : movedTo store.name op = some ino) :
    Represents store r.settle
      { disk with durableEntries := op.apply disk.durableEntries, queue := rest } := by
  have hqueued := h.queued
  have hnamed := h.named
  rw [hqueue, List.filterMap_cons_some hmoved] at hqueued
  rw [hqueue] at hnamed
  obtain ⟨settled, pending⟩ := r
  obtain ⟨p, pending, rfl⟩ : ∃ p l, pending = p :: l := by
    apply List.exists_cons_of_ne_nil
    rintro rfl
    cases hqueued
  obtain ⟨hino, hrest⟩ := List.cons.inj hqueued
  have hversions := Register.versions_settle (⟨settled, p :: pending⟩ : Register Version)
  have hdurable := apply_of_movedTo hmoved disk.durableEntries
  exact {
    target := by
      rw [Register.current, hversions]
      exact h.target
    durable := by
      simp [Register.settle, Register.recovered, hdurable, hino]
    queued := hrest
    named := fun op' hop' => hnamed op' (List.mem_cons_of_mem _ hop')
    used := h.used
    held := by
      rw [hversions]
      exact fun p hp => ⟨(h.held p hp).1, (h.held p hp).2.keeps ⟨rfl, id, fun _ => rfl⟩⟩
    isDir := by
      rw [hversions]
      exact h.isDir }

/-- A change that becomes durable settles a version, or is about another name. -/
theorem commit (h : Represents store r disk) :
    Represents store r disk.commit ∨ Represents store r.settle disk.commit := by
  obtain ⟨-, hcommit⟩ | ⟨op, rest, hqueue, hcommit⟩ := disk.commit_cases <;> rw [hcommit]
  · exact Or.inl h
  · cases hmoved : movedTo store.name op with
    | none => exact Or.inl (h.commit_other hqueue hmoved)
    | some ino => exact Or.inr (h.commit_moved hqueue hmoved)

end Represents

/-! ## The saves under way -/

/-- The file a `save` works on: its temporary name and its number. -/
def SavePc.file : SavePc → Option (String × ℕ)
  | .opened tmp ino | .writing tmp ino _ | .flushed tmp ino | .synced tmp ino | .closed tmp ino
  | .unwinding tmp ino _ | .cleanup tmp ino => some (tmp, ino)
  | .idle | .made | .returned _ | .raised | .killed => none

/-- How much of the token is in the file. -/
def SavePc.Progress (token : Token) (disk : Disk String Char) : SavePc → Prop
  | .opened _ ino => disk.data ino = []
  | .writing _ ino rest => disk.data ino ++ rest = serialise token
  | .flushed _ ino => disk.data ino = serialise token
  | .synced _ ino | .closed _ ino => disk.Holds ino (serialise token)
  | _ => True

/-- A `save` under way has a file of its own, under its temporary name. -/
structure SaveOk (store : TokenStore) (token : Token) (disk : Disk String Char) (pc : SavePc) :
    Prop where
  file : ∀ tmp ino, pc.file = some (tmp, ino) →
    tmp ≠ store.name ∧ disk.entries tmp = some ino ∧ disk.isDir = true
  progress : pc.Progress token disk

variable {store : TokenStore}

/-- A step that leaves the file of a `save` alone. -/
theorem SaveOk.frame {token : Token} {disk disk' : Disk String Char} {pc : SavePc}
    (h : SaveOk store token disk pc)
    (hframe : ∀ tmp ino, pc.file = some (tmp, ino) →
      disk'.entries tmp = disk.entries tmp ∧ disk.Keeps disk' ino)
    (hdir : disk.isDir = true → disk'.isDir = true) : SaveOk store token disk' pc where
  file tmp ino hfile := by
    obtain ⟨hne, hentry, hisDir⟩ := h.file tmp ino hfile
    exact ⟨hne, (hframe tmp ino hfile).1.trans hentry, hdir hisDir⟩
  progress := by
    have hprogress := h.progress
    cases pc with
    | opened tmp ino => exact (hframe tmp ino rfl).2.data.trans hprogress
    | writing tmp ino rest =>
      rw [SavePc.Progress, (hframe tmp ino rfl).2.data]
      exact hprogress
    | flushed tmp ino => exact (hframe tmp ino rfl).2.data.trans hprogress
    | synced tmp ino => exact Disk.Holds.keeps hprogress (hframe tmp ino rfl).2
    | closed tmp ino => exact Disk.Holds.keeps hprogress (hframe tmp ino rfl).2
    | _ => trivial

/-- A `save` without a file needs nothing of the disk. -/
theorem SaveOk.of_no_file {token : Token} {disk : Disk String Char} {pc : SavePc}
    (h : pc.file = none) : SaveOk store token disk pc where
  file tmp ino hfile := by
    rw [h] at hfile
    cases hfile
  progress := by
    cases pc with
    | idle | made | returned | raised | killed => trivial
    | _ => cases h

/-! ## The invariant -/

/-- The disk represents the register, and the saves do not interfere. -/
structure Inv (store : TokenStore) (r : Register Version) (s : Sys) : Prop where
  disk : Represents store r s.disk
  saves : ∀ id, SaveOk store (store.token id) s.disk (s.saves id)
  /-- no file is worked on by two saves -/
  apart : ∀ id id' tmp tmp' ino, (s.saves id).file = some (tmp, ino) →
    (s.saves id').file = some (tmp', ino) → id = id'
  /-- every version has a file of its own -/
  distinct : (r.versions.map Prod.fst).Nodup
  /-- no version is worked on -/
  fixed : ∀ id tmp ino, (s.saves id).file = some (tmp, ino) → ∀ p ∈ r.versions, p.1 ≠ ino
  /-- what a `save` that returned moved to the target is a version -/
  returned : ∀ id ino, s.saves id = .returned ino → (ino, store.token id) ∈ r.versions

variable {r r' : Register Version} {s : Sys}

/-- Two saves have different temporary names: each is linked to its own file. -/
theorem Inv.other_tmp (h : Inv store r s) {id id' : ℕ} {tmp tmp' : String} {ino ino' : ℕ}
    (hid : id' ≠ id) (hf : (s.saves id).file = some (tmp, ino))
    (hf' : (s.saves id').file = some (tmp', ino')) : tmp' ≠ tmp := by
  rintro rfl
  have hentry := ((h.saves id).file tmp' ino hf).2.1
  have hentry' := ((h.saves id').file tmp' ino' hf').2.1
  obtain rfl := Option.some.inj (hentry.symm.trans hentry')
  exact hid (h.apart id' id tmp' tmp' ino hf' hf)

/-- One call of `save` goes on, and the others are left alone. -/
theorem Inv.update (h : Inv store r s) {id : ℕ} {disk' : Disk String Char} {pc' : SavePc}
    (hdisk : Represents store r' disk') (hself : SaveOk store (store.token id) disk' pc')
    (hframe : ∀ id' tmp ino, id' ≠ id → (s.saves id').file = some (tmp, ino) →
      disk'.entries tmp = s.disk.entries tmp ∧ s.disk.Keeps disk' ino)
    (hdir : s.disk.isDir = true → disk'.isDir = true)
    (hdistinct : (r'.versions.map Prod.fst).Nodup)
    (hfile : ∀ tmp ino, pc'.file = some (tmp, ino) →
      (s.saves id).file = some (tmp, ino) ∨ ino = s.disk.next)
    (hsub : ∀ p ∈ r.versions, p ∈ r'.versions)
    (hnew : ∀ p ∈ r'.versions, p ∈ r.versions ∨
      pc'.file = none ∧ ∃ tmp, (s.saves id).file = some (tmp, p.1))
    (hreturned : ∀ ino, pc' = .returned ino → (ino, store.token id) ∈ r'.versions) :
    Inv store r' { s with disk := disk', saves := Function.update s.saves id pc' } := by
  have hused : ∀ id' tmp ino, (s.saves id').file = some (tmp, ino) → ino < s.disk.next :=
    fun id' tmp ino hf => h.disk.used tmp ino ((h.saves id').file tmp ino hf).2.1
  have hself_apart : ∀ id' tmp tmp' ino, id' ≠ id → pc'.file = some (tmp, ino) →
      (s.saves id').file ≠ some (tmp', ino) := by
    intro id' tmp tmp' ino hne hf hf'
    rcases hfile tmp ino hf with hold | rfl
    · exact hne (h.apart id' id tmp' tmp ino hf' hold)
    · exact Nat.lt_irrefl _ (hused id' tmp' _ hf')
  refine ⟨hdisk, ?_, ?_, hdistinct, ?_, ?_⟩
  · -- the files of the other calls are framed
    intro id'
    rcases eq_or_ne id' id with rfl | hne
    · simpa using hself
    · simp only [Function.update_of_ne hne]
      exact (h.saves id').frame (fun tmp ino hf => hframe id' tmp ino hne hf) hdir
  · -- no two calls share a file: this one kept its file, or has a new one
    intro id₁ id₂ tmp tmp' ino h₁ h₂
    by_cases heq₁ : id₁ = id
    · by_cases heq₂ : id₂ = id
      · exact heq₁.trans heq₂.symm
      · simp only [heq₁, Function.update_self, Function.update_of_ne heq₂] at h₁ h₂
        exact absurd h₂ (hself_apart id₂ tmp tmp' ino heq₂ h₁)
    · by_cases heq₂ : id₂ = id
      · simp only [heq₂, Function.update_self, Function.update_of_ne heq₁] at h₁ h₂
        exact absurd h₁ (hself_apart id₁ tmp' tmp ino heq₁ h₂)
      · simp only [Function.update_of_ne heq₁, Function.update_of_ne heq₂] at h₁ h₂
        exact h.apart id₁ id₂ tmp tmp' ino h₁ h₂
  · -- a new version is the file this call worked on, and works on no longer
    intro id' tmp ino hf p hp
    rcases eq_or_ne id' id with rfl | hne
    · simp only [Function.update_self] at hf
      rcases hnew p hp with hp | ⟨hnone, -⟩
      · rcases hfile tmp ino hf with hold | rfl
        · exact h.fixed id' tmp ino hold p hp
        · exact Nat.ne_of_lt (h.disk.held p hp).1
      · rw [hnone] at hf
        cases hf
    · simp only [Function.update_of_ne hne] at hf
      rcases hnew p hp with hp | ⟨-, tmp', hown⟩
      · exact h.fixed id' tmp ino hf p hp
      · rintro rfl
        exact hne (h.apart id' id tmp tmp' p.1 hf hown)
  · intro id' ino hret
    rcases eq_or_ne id' id with rfl | hne
    · simp only [Function.update_self] at hret
      exact hreturned ino hret
    · simp only [Function.update_of_ne hne] at hret
      exact hsub _ (h.returned id' ino hret)

/-- A move that leaves the disk alone. -/
theorem Inv.quiet (h : Inv store r s) {id : ℕ} {pc' : SavePc}
    (hself : SaveOk store (store.token id) s.disk pc')
    (hfile : ∀ tmp ino, pc'.file = some (tmp, ino) → (s.saves id).file = some (tmp, ino))
    (hreturned : ∀ ino, pc' ≠ .returned ino) :
    Inv store r { s with disk := s.disk, saves := Function.update s.saves id pc' } :=
  h.update h.disk hself (fun _ _ _ _ _ => ⟨rfl, .refl⟩) (fun hdir => hdir) h.distinct
    (fun tmp ino hf => Or.inl (hfile tmp ino hf)) (fun _ hp => hp) (fun _ hp => Or.inl hp)
    fun ino hret => absurd hret (hreturned ino)

/-- A move that writes to the file of the call. -/
theorem Inv.onFile (h : Inv store r s) {id : ℕ} {tmp : String} {ino : ℕ}
    {disk' : Disk String Char} {pc' : SavePc} (hold : (s.saves id).file = some (tmp, ino))
    (hnew : pc'.file = some (tmp, ino)) (hdisk : Represents store r disk')
    (hentries : disk'.entries = s.disk.entries) (hdir : disk'.isDir = s.disk.isDir)
    (hkeep : ∀ ino', ino' ≠ ino → s.disk.Keeps disk' ino')
    (hprogress : pc'.Progress (store.token id) disk') :
    Inv store r { s with disk := disk', saves := Function.update s.saves id pc' } := by
  obtain ⟨hne, hentry, hisDir⟩ := (h.saves id).file tmp ino hold
  refine h.update hdisk ⟨?_, hprogress⟩ ?_ (fun hd => hdir.trans hd) h.distinct ?_ (fun _ hp => hp)
    (fun _ hp => Or.inl hp) ?_
  · intro tmp' ino' hf
    rw [hnew] at hf
    cases hf
    exact ⟨hne, (congrFun hentries tmp).trans hentry, hdir.trans hisDir⟩
  · intro id' tmp' ino' hid hf
    refine ⟨congrFun hentries tmp', hkeep ino' ?_⟩
    rintro rfl
    exact hid (h.apart id' id tmp' tmp ino' hf hold)
  · intro tmp' ino' hf
    rw [hnew] at hf
    exact Or.inl (hold.trans hf)
  · rintro ino' rfl
    cases hnew

/-- The parent directory is made. -/
theorem Inv.mkdir (h : Inv store r s) (id : ℕ) :
    Inv store r { s with disk := s.disk.mkdir, saves := Function.update s.saves id .made } := by
  refine h.update h.disk.mkdir (.of_no_file rfl) (fun _ _ _ _ _ => ⟨rfl, Disk.keeps_mkdir⟩)
    (fun _ => rfl) h.distinct ?_ (fun _ hp => hp) (fun _ hp => Or.inl hp) ?_
  · rintro tmp ino ⟨⟩
  · rintro ino ⟨⟩

/-- A `save` gets a file of its own: the name was free, and the number is new. -/
theorem Inv.mkstemp (h : Inv store r s) (id : ℕ) {tmp : String} (hne : tmp ≠ store.name)
    (hdir : s.disk.isDir = true) (hfree : s.disk.entries tmp = none) :
    Inv store r { s with
      disk := s.disk.create tmp
      saves := Function.update s.saves id (.opened tmp s.disk.next) } := by
  refine h.update (h.disk.create hne) ⟨?_, Disk.data_create_self _⟩ ?_ (fun hd => hd)
    h.distinct ?_ (fun _ hp => hp) (fun _ hp => Or.inl hp) ?_
  · rintro tmp ino ⟨⟩
    exact ⟨hne, Disk.entries_create_self _, hdir⟩
  · intro id' tmp' ino _ hf
    obtain ⟨-, hentry, -⟩ := (h.saves id').file tmp' ino hf
    refine ⟨Disk.entries_create_of_ne ?_, Disk.keeps_create (h.disk.used tmp' ino hentry) _⟩
    -- the new name was free, the other one is not
    rintro rfl
    rw [hfree] at hentry
    cases hentry
  · rintro tmp ino ⟨⟩
    exact Or.inr rfl
  · rintro ino ⟨⟩

/-- A `save` moves its file to the target: from here on the file is a version,
and nobody's. -/
theorem Inv.replace (h : Inv store r s) {id : ℕ} {tmp : String} {ino : ℕ}
    (hfile : (s.saves id).file = some (tmp, ino))
    (hholds : s.disk.Holds ino (serialise (store.token id))) :
    Inv store (r.push (ino, store.token id)) { s with
      disk := s.disk.change (.rename tmp store.name ino)
      saves := Function.update s.saves id (.returned ino) } := by
  obtain ⟨hne, hentry, hdir⟩ := (h.saves id).file tmp ino hfile
  refine h.update (h.disk.rename hne hentry hholds hdir) (.of_no_file rfl) ?_
    (fun hd => hd) ?_ ?_ ?_ ?_ ?_
  · intro id' tmp' ino' hid hf
    have hne' := ((h.saves id').file tmp' ino' hf).1
    have htmp := h.other_tmp hid hfile hf
    exact ⟨Disk.entries_change_of_not_mem (by simp [DirOp.names, htmp, hne']),
      Disk.keeps_change _⟩
  · -- no version was worked on, so this file is a new one
    rw [Register.versions_push, List.map_append, List.nodup_append]
    refine ⟨h.distinct, List.nodup_singleton _, ?_⟩
    rintro _ hmem _ hnew rfl
    obtain ⟨p, hp, rfl⟩ := List.mem_map.mp hmem
    exact h.fixed id tmp ino hfile p hp (List.mem_singleton.mp hnew)
  · rintro tmp' ino' ⟨⟩
  · intro p hp
    rw [Register.versions_push]
    exact List.mem_append_left _ hp
  · intro p hp
    rw [Register.versions_push] at hp
    rcases List.mem_append.mp hp with hp | hp
    · exact Or.inl hp
    · rw [List.mem_singleton.mp hp]
      exact Or.inr ⟨rfl, tmp, hfile⟩
  · rintro ino' ⟨⟩
    rw [Register.versions_push]
    exact List.mem_append_right _ (List.mem_singleton.mpr rfl)

/-- A `save` that failed removes its temporary name. -/
theorem Inv.unlink (h : Inv store r s) {id : ℕ} {tmp : String} {ino : ℕ}
    (hfile : (s.saves id).file = some (tmp, ino)) :
    Inv store r { s with
      disk := s.disk.change (.unlink tmp)
      saves := Function.update s.saves id .raised } := by
  obtain ⟨hne, -, -⟩ := (h.saves id).file tmp ino hfile
  refine h.update (h.disk.unlink hne) (.of_no_file rfl) ?_ (fun hd => hd) h.distinct ?_
    (fun _ hp => hp) (fun _ hp => Or.inl hp) ?_
  · intro id' tmp' ino' hid hf
    have htmp := h.other_tmp hid hfile hf
    exact ⟨Disk.entries_change_of_not_mem (by simpa [DirOp.names] using htmp),
      Disk.keeps_change _⟩
  · rintro tmp' ino' ⟨⟩
  · rintro ino' ⟨⟩

/-- What a step to a state does to the register. -/
inductive Advance (store : TokenStore) (s' : Sys) :
    StoreEvent → Register Version → Register Version → Prop where
  | push {id ino : ℕ} {r : Register Version} : s'.saves id = .returned ino →
      Advance store s' (.save id .replace) r (r.push (ino, store.token id))
  | settle {r : Register Version} : Advance store s' .commit r r.settle
  | stay {e : StoreEvent} {r : Register Version} : (∀ id, e ≠ .save id .replace) →
      Advance store s' e r r

/-- Where an exception takes a call, the file is the one it had. -/
theorem fail_ok {token : Token} {disk : Disk String Char} {pc pc' : SavePc}
    (h : SaveOk store token disk pc) (hfail : pc.fail = some pc') :
    SaveOk store token disk pc' ∧ (∀ tmp ino, pc'.file = some (tmp, ino) →
      pc.file = some (tmp, ino)) ∧ ∀ ino, pc' ≠ .returned ino := by
  cases pc with
  | idle | made | cleanup =>
    cases hfail
    exact ⟨.of_no_file rfl, by rintro tmp ino ⟨⟩, by rintro ino ⟨⟩⟩
  | opened | writing | flushed | synced | closed | unwinding =>
    cases hfail
    exact ⟨⟨h.file, trivial⟩, fun tmp ino hf => hf, by rintro ino ⟨⟩⟩
  | returned | raised | killed => cases hfail

/-- **The step lemma for `save`**: every move keeps the invariant, and only the
rename moves the register. -/
theorem Inv.move (h : Inv store r s) {id : ℕ} {op : SaveOp} {disk' : Disk String Char}
    {pc' : SavePc} (hm : SaveMove store (store.token id) s.disk (s.saves id) op disk' pc') :
    ∃ r', Inv store r' { s with disk := disk', saves := Function.update s.saves id pc' } ∧
      Advance store { s with disk := disk', saves := Function.update s.saves id pc' }
        (.save id op) r r' := by
  have hok := h.saves id
  generalize hpc : s.saves id = pc at hm hok
  have hstay : ∀ {s' : Sys} {op : SaveOp}, op ≠ .replace →
      Advance store s' (.save id op) r r := by
    intro s' op hop
    refine .stay fun id' he => hop ?_
    cases he
    rfl
  cases hm with
  | mkdir => exact ⟨r, h.mkdir id, hstay (by decide)⟩
  | @mkstemp random hdir hfree =>
    exact ⟨r, h.mkstemp id (tempName_ne store.name random) hdir hfree, hstay (by simp)⟩
  | @fdopen tmp ino =>
    have hfile : (s.saves id).file = some (tmp, ino) := by rw [hpc]; rfl
    refine ⟨r, h.quiet ⟨hok.file, ?_⟩ (fun _ _ hf => hfile.trans hf) (by simp), hstay (by decide)⟩
    have hempty : s.disk.data ino = [] := hok.progress
    rw [SavePc.Progress, hempty, List.nil_append]
  | @write tmp ino n rest =>
    have hfile : (s.saves id).file = some (tmp, ino) := by rw [hpc]; rfl
    have hfixed := h.fixed id tmp ino hfile
    refine ⟨r, h.onFile hfile rfl (h.disk.append hfixed _) rfl rfl
      (fun ino' hne => Disk.keeps_append hne _) ?_, hstay (by simp)⟩
    have hrest : s.disk.data ino ++ rest = serialise (store.token id) := hok.progress
    rw [SavePc.Progress, Disk.data_append_self, List.append_assoc, List.take_append_drop, hrest]
  | @flush tmp ino =>
    have hfile : (s.saves id).file = some (tmp, ino) := by rw [hpc]; rfl
    refine ⟨r, h.quiet ⟨hok.file, ?_⟩ (fun _ _ hf => hfile.trans hf) (by simp), hstay (by decide)⟩
    have hrest : s.disk.data ino ++ [] = serialise (store.token id) := hok.progress
    rwa [List.append_nil] at hrest
  | @fsync tmp ino =>
    have hfile : (s.saves id).file = some (tmp, ino) := by rw [hpc]; rfl
    have hfixed := h.fixed id tmp ino hfile
    refine ⟨r, h.onFile hfile rfl (h.disk.fsync hfixed) rfl rfl
      (fun ino' hne => Disk.keeps_fsync hne) ?_, hstay (by decide)⟩
    have hfull : s.disk.data ino = serialise (store.token id) := hok.progress
    rw [SavePc.Progress, ← hfull]
    exact Disk.holds_fsync
  | @close tmp ino =>
    have hfile : (s.saves id).file = some (tmp, ino) := by rw [hpc]; rfl
    exact ⟨r, h.quiet ⟨hok.file, hok.progress⟩ (fun _ _ hf => hfile.trans hf) (by simp),
      hstay (by decide)⟩
  | @replace tmp ino ino' hentry' =>
    have hfile : (s.saves id).file = some (tmp, ino) := by rw [hpc]; rfl
    obtain ⟨-, hentry, -⟩ := hok.file tmp ino rfl
    obtain rfl : ino = ino' := Option.some.inj (hentry.symm.trans hentry')
    exact ⟨_, h.replace hfile hok.progress, .push (Function.update_self ..)⟩
  | @writeUnwinding tmp ino n rest =>
    have hfile : (s.saves id).file = some (tmp, ino) := by rw [hpc]; rfl
    have hfixed := h.fixed id tmp ino hfile
    exact ⟨r, h.onFile hfile rfl (h.disk.append hfixed _) rfl rfl
      (fun ino' hne => Disk.keeps_append hne _) trivial, hstay (by simp)⟩
  | @closeUnwinding tmp ino rest =>
    have hfile : (s.saves id).file = some (tmp, ino) := by rw [hpc]; rfl
    exact ⟨r, h.quiet ⟨hok.file, trivial⟩ (fun _ _ hf => hfile.trans hf) (by simp),
      hstay (by decide)⟩
  | @unlink tmp ino =>
    have hfile : (s.saves id).file = some (tmp, ino) := by rw [hpc]; rfl
    exact ⟨r, h.unlink hfile, hstay (by decide)⟩
  | unlinkGone hentry' =>
    exact ⟨r, h.quiet (.of_no_file rfl) (by rintro tmp ino ⟨⟩) (by simp), hstay (by decide)⟩
  | fail hfail =>
    obtain ⟨hself, hf, hret⟩ := fail_ok hok hfail
    refine ⟨r, h.quiet hself (fun tmp ino hfile => ?_) hret, hstay (by decide)⟩
    rw [hpc]
    exact hf tmp ino hfile
  | kill hended =>
    exact ⟨r, h.quiet (.of_no_file rfl) (by rintro tmp ino ⟨⟩) (by simp), hstay (by decide)⟩

/-- What the file system does on its own leaves the saves alone. -/
theorem Inv.system (h : Inv store r s) {disk' : Disk String Char}
    (hdisk : Represents store r' disk') (hversions : r'.versions = r.versions)
    (hentries : disk'.entries = s.disk.entries) (hdir : disk'.isDir = s.disk.isDir)
    (hkeep : ∀ ino, s.disk.Keeps disk' ino) : Inv store r' { s with disk := disk' } where
  disk := hdisk
  saves id := (h.saves id).frame (fun tmp ino _ => ⟨congrFun hentries tmp, hkeep ino⟩)
    fun hd => hdir.trans hd
  apart := h.apart
  distinct := hversions ▸ h.distinct
  fixed := hversions ▸ h.fixed
  returned := hversions ▸ h.returned

/-- **The step lemma**: every step keeps the invariant, and advances the
register as its event says. -/
theorem Inv.step (h : Inv store r s) {e : StoreEvent} {s' : Sys}
    (hstep : store.step s e = some s') : ∃ r', Inv store r' s' ∧ Advance store s' e r r' := by
  cases e with
  | save id op =>
    obtain ⟨⟨disk', pc'⟩, hsave, rfl⟩ := Option.map_eq_some_iff.mp hstep
    exact h.move (move_of_saveStep hsave)
  | load id op =>
    obtain ⟨pc, -, rfl⟩ := Option.map_eq_some_iff.mp hstep
    exact ⟨r, ⟨h.disk, h.saves, h.apart, h.distinct, h.fixed, h.returned⟩, .stay nofun⟩
  | writeback ino content =>
    cases hstep
    exact ⟨r, h.system (h.disk.writeback ino content) rfl rfl rfl
      fun _ => Disk.keeps_writeback ino content, .stay nofun⟩
  | commit =>
    cases hstep
    rcases h.disk.commit with hdisk | hdisk
    · exact ⟨r, h.system hdisk rfl Disk.entries_commit Disk.isDir_commit
        fun _ => Disk.keeps_commit, .stay nofun⟩
    · exact ⟨r.settle, h.system hdisk (Register.versions_settle r) Disk.entries_commit
        Disk.isDir_commit fun _ => Disk.keeps_commit, .settle⟩
  | commitDir =>
    cases hstep
    exact ⟨r, h.system h.disk.commitDir rfl rfl rfl fun _ => ⟨rfl, fun hs => hs, fun _ => rfl⟩,
      .stay nofun⟩

/-! ## The start -/

/-- The register at the start: the stored version has settled. -/
def Start.register {name : String} (start : Start name) : Register Version :=
  ⟨start.stored.toList, []⟩

theorem Start.inv (start : Start store.name) : Inv store start.register start.sys where
  disk := by
    have hversions : start.register.versions = start.stored.toList := List.append_nil _
    have hlast : start.stored.toList.getLast? = start.stored := by
      cases start.stored <;> rfl
    exact {
      target := by
        rw [Register.current, hversions, hlast]
        exact start.entry
      durable := by
        rw [Register.recovered, Start.register, hlast]
        exact (congrFun start.durableEntries _).trans start.entry
      queued := by
        rw [Start.sys, start.queue]
        rfl
      named := by
        rw [Start.sys, start.queue]
        exact fun op hop => absurd hop (List.not_mem_nil)
      used := start.used
      held := by
        rw [hversions]
        intro p hp
        have hp' := Option.mem_toList.mp hp
        have hentry : start.disk.entries store.name = some p.1 := by
          rw [start.entry, hp']
          rfl
        obtain ⟨hdata, hdurable, hsynced⟩ := start.content p hp'
        exact ⟨start.used _ _ hentry, hdata, hsynced, hdurable⟩
      isDir := by
        intro hfalse
        rw [hversions]
        rcases hstored : start.stored with _ | p
        · rfl
        · have htrue := start.isDir (by rw [hstored]; rfl)
          rw [Start.sys, htrue] at hfalse
          cases hfalse }
  saves _ := .of_no_file rfl
  apart := by rintro id id' tmp tmp' ino ⟨⟩
  distinct := by
    rw [Register.versions, Start.register, List.append_nil]
    cases start.stored with
    | none => exact List.nodup_nil
    | some p => exact List.nodup_singleton _
  fixed := by rintro id tmp ino ⟨⟩
  returned := by rintro id ino ⟨⟩

end KgaGateway
