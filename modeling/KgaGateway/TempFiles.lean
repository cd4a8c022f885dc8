import KgaGateway.PowerLoss

/-!
# The temporary files

What is in the directory beside the target. The `except` clause of `save` is to
leave no temporary file behind. Two things it cannot help: the process is
killed while it has the file, or the unlink itself fails. These are the only
ones (`directory_accounted`): at any moment of any run, the names beside the
target are those of the start, those of the saves under way, and those left
behind in these two ways. And no file that was there at the start is written
to.

A `save` waits for nobody. Whatever the others do, or have left undone, it can
be finished by steps of its own (`save_finishes`).
-/

namespace KgaGateway

/-! ## What is left behind -/

/-- The file a `save` leaves behind with an operation: it is killed while it has
the file, or cannot unlink it. -/
def SavePc.abandons (pc : SavePc) : SaveOp → Option (String × ℕ)
  | .kill => pc.file
  | .fail =>
    match pc with
    | .cleanup tmp ino => some (tmp, ino)
    | _ => none
  | _ => none

/-- The file left behind in a step. -/
def StoreEvent.abandons (s : Sys) : StoreEvent → Option (String × ℕ)
  | .save id op => (s.saves id).abandons op
  | _ => none

/-- The files left behind in a run. -/
def TokenStore.abandoned (store : TokenStore) : Sys → List StoreEvent → List (String × ℕ)
  | _, [] => []
  | s, e :: events =>
    (e.abandons s).toList ++ (store.step s e).elim [] fun s' => store.abandoned s' events

variable {store : TokenStore} {start : Start store.name} {events : List StoreEvent}
  {r : Register Version} {s s' : Sys}

theorem abandoned_append_singleton (e : StoreEvent) : ∀ (events : List StoreEvent) {s m : Sys},
    store.run s events = some m →
      store.abandoned s (events ++ [e]) = store.abandoned s events ++ (e.abandons m).toList := by
  intro events
  induction events with
  | nil =>
    intro s m hrun
    cases hrun
    rw [List.nil_append, TokenStore.abandoned, TokenStore.abandoned, List.nil_append]
    cases store.step s e <;> simp [TokenStore.abandoned]
  | cons e' events ih =>
    intro s m hrun
    obtain ⟨s', hstep, hrun⟩ := Option.bind_eq_some_iff.mp hrun
    rw [List.cons_append, TokenStore.abandoned, TokenStore.abandoned, hstep, Option.elim_some,
      Option.elim_some, ih hrun, List.append_assoc]

/-! ## What a step does to the names -/

/-- What a step of a `save` does to the names beside the target, and to the file
it has. -/
inductive FileMove (name : String) (disk disk' : Disk String Char) (pc pc' : SavePc)
    (op : SaveOp) : Prop where
  | stay : disk'.entries = disk.entries → disk'.next = disk.next → pc'.file = pc.file →
      pc.abandons op = none → FileMove name disk disk' pc pc' op
  | create {tmp : String} : tmp ≠ name → disk.entries tmp = none → disk' = disk.create tmp →
      pc.file = none → pc'.file = some (tmp, disk.next) → pc.abandons op = none →
      FileMove name disk disk' pc pc' op
  | remove {tmp : String} {ino : ℕ} :
      (∀ file, file ≠ name → disk'.entries file = if file = tmp then none else disk.entries file) →
      disk'.next = disk.next → pc.file = some (tmp, ino) → pc'.file = none →
      pc.abandons op = none → FileMove name disk disk' pc pc' op
  | abandon {tmp : String} {ino : ℕ} : disk' = disk → pc.file = some (tmp, ino) →
      pc'.file = none → pc.abandons op = some (tmp, ino) → FileMove name disk disk' pc pc' op

theorem fail_file {pc pc' : SavePc} (h : pc.fail = some pc') :
    (pc'.file = pc.file ∧ pc.abandons .fail = none) ∨
      ∃ tmp ino, pc = .cleanup tmp ino ∧ pc' = .raised := by
  cases pc with
  | cleanup tmp ino =>
    cases h
    exact Or.inr ⟨tmp, ino, rfl, rfl⟩
  | returned | raised | killed => cases h
  | _ =>
    cases h
    exact Or.inl ⟨rfl, rfl⟩

/-- Every move is one of the four. -/
theorem SaveMove.fileMove {token : Token} {disk disk' : Disk String Char} {pc pc' : SavePc}
    {op : SaveOp} (hm : SaveMove store token disk pc op disk' pc')
    (hfile : ∀ tmp ino, pc.file = some (tmp, ino) →
      tmp ≠ store.name ∧ disk.entries tmp = some ino) :
    FileMove store.name disk disk' pc pc' op := by
  cases hm with
  | @mkstemp random hdir hfree =>
    exact .create (tempName_ne store.name random) hfree rfl rfl rfl rfl
  | @replace tmp ino ino' hentry =>
    obtain ⟨hne, -⟩ := hfile tmp ino rfl
    refine .remove (fun file hname => ?_) rfl rfl rfl rfl
    by_cases htmp : file = tmp
    · rw [if_pos htmp, htmp, Disk.entries_rename_source hne]
    · rw [if_neg htmp, Disk.entries_change_of_not_mem (by simp [DirOp.names, htmp, hname])]
  | @unlink tmp ino ino' hentry =>
    refine .remove (fun file _ => ?_) rfl rfl rfl rfl
    by_cases htmp : file = tmp
    · rw [if_pos htmp, htmp, Disk.entries_unlink_self]
    · rw [if_neg htmp, Disk.entries_change_of_not_mem (by simpa [DirOp.names] using htmp)]
  | @unlinkGone tmp ino hentry =>
    -- the name of a file a call has is linked
    rw [(hfile tmp ino rfl).2] at hentry
    cases hentry
  | fail hfail =>
    rcases fail_file hfail with ⟨hsame, hnone⟩ | ⟨tmp, ino, rfl, rfl⟩
    · exact .stay rfl rfl hsame hnone
    · exact .abandon rfl rfl rfl rfl
  | kill hended =>
    cases hpc : pc.file with
    | none => exact .stay rfl rfl hpc.symm hpc
    | some p => exact @FileMove.abandon _ _ _ _ _ _ p.1 p.2 rfl hpc rfl hpc
  | _ => exact .stay rfl rfl rfl rfl

/-- The file after a move is the one before, or a new one. -/
theorem FileMove.file {name : String} {disk disk' : Disk String Char} {pc pc' : SavePc}
    {op : SaveOp} (h : FileMove name disk disk' pc pc' op) {tmp : String} {ino : ℕ}
    (hpc' : pc'.file = some (tmp, ino)) :
    pc.file = some (tmp, ino) ∨ ino = disk.next := by
  cases h with
  | stay _ _ hsame _ => exact Or.inl (hsame.symm.trans hpc')
  | create _ _ _ _ hnew _ =>
    rw [hnew] at hpc'
    cases hpc'
    exact Or.inr rfl
  | remove _ _ _ hgone _ | abandon _ _ hgone _ =>
    rw [hgone] at hpc'
    cases hpc'

theorem FileMove.next_le {name : String} {disk disk' : Disk String Char} {pc pc' : SavePc}
    {op : SaveOp} (h : FileMove name disk disk' pc pc' op) : disk.next ≤ disk'.next := by
  cases h with
  | stay _ hnext _ _ | remove _ hnext _ _ _ => exact hnext.ge
  | create _ _ hdisk _ _ _ => exact hdisk ▸ Nat.le_succ _
  | abandon hdisk _ _ _ => exact hdisk ▸ le_rfl

/-- What a call leaves behind was its own, and it has nothing any more. -/
theorem FileMove.abandoned {name : String} {disk disk' : Disk String Char} {pc pc' : SavePc}
    {op : SaveOp} (h : FileMove name disk disk' pc pc' op) {p : String × ℕ}
    (hp : pc.abandons op = some p) : pc.file = some p ∧ pc'.file = none := by
  cases h with
  | abandon _ hpc hgone hsome => exact ⟨hpc.trans (hsome.symm.trans hp), hgone⟩
  | stay _ _ _ hnone | create _ _ _ _ _ hnone | remove _ _ _ _ hnone =>
    rw [hnone] at hp
    cases hp

/-- A move writes to the file of the call only. -/
theorem SaveMove.data {token : Token} {disk disk' : Disk String Char} {pc pc' : SavePc}
    {op : SaveOp} (hm : SaveMove store token disk pc op disk' pc') {ino : ℕ}
    (hlt : ino < disk.next) (hown : ∀ tmp, pc.file ≠ some (tmp, ino)) :
    disk'.data ino = disk.data ino := by
  have happend : ∀ {tmp ino' content}, pc.file = some (tmp, ino') →
      (disk.append ino' content).data ino = disk.data ino := by
    intro tmp ino' content hpc
    refine Function.update_of_ne ?_ ..
    rintro rfl
    exact hown tmp hpc
  cases hm with
  | mkstemp => exact Function.update_of_ne (Nat.ne_of_lt hlt) ..
  | write | writeUnwinding => exact happend rfl
  | _ => rfl

/-! ## The accounts -/

/-- Why a name beside the target is linked to a file. -/
def Accounted (store : TokenStore) (start : Start store.name) (events : List StoreEvent)
    (s : Sys) (file : String) (ino : ℕ) : Prop :=
  start.disk.entries file = some ino ∨ (∃ id, (s.saves id).file = some (file, ino)) ∨
    (file, ino) ∈ store.abandoned start.sys events

/-- What holds of the names beside the target after a run. -/
structure Tidy (store : TokenStore) (start : Start store.name) (events : List StoreEvent)
    (s : Sys) : Prop where
  entries : ∀ file ino, file ≠ store.name →
    (s.disk.entries file = some ino ↔ Accounted store start events s file ino)
  next : start.disk.next ≤ s.disk.next
  /-- the file of a call was not there at the start -/
  new : ∀ id tmp ino, (s.saves id).file = some (tmp, ino) → start.disk.next ≤ ino
  /-- what was left behind has a name of its own, and is nobody's -/
  left : ∀ tmp ino, (tmp, ino) ∈ store.abandoned start.sys events →
    tmp ≠ store.name ∧ ∀ id tmp', (s.saves id).file ≠ some (tmp', ino)
  data : ∀ ino, ino < start.disk.next → s.disk.data ino = start.disk.data ino

theorem Tidy.init : Tidy store start [] start.sys where
  entries file ino _ := by simp [Accounted, Start.sys, SavePc.file, TokenStore.abandoned]
  next := le_rfl
  new := by rintro id tmp ino ⟨⟩
  left := by rintro tmp ino ⟨⟩
  data _ _ := rfl

/-- A step that is no `save`'s. -/
theorem Tidy.other {e : StoreEvent} (h : Tidy store start events s)
    (hrun : store.run start.sys events = some s) (hentries : s'.disk.entries = s.disk.entries)
    (hnext : s'.disk.next = s.disk.next) (hdata : s'.disk.data = s.disk.data)
    (hsaves : s'.saves = s.saves) (hkeeps : e.abandons s = none) :
    Tidy store start (events ++ [e]) s' := by
  have habandoned : store.abandoned start.sys (events ++ [e]) =
      store.abandoned start.sys events := by
    rw [abandoned_append_singleton e events hrun, hkeeps, Option.toList_none, List.append_nil]
  refine ⟨fun file ino hfile => ?_, hnext ▸ h.next, hsaves ▸ h.new, ?_, hdata ▸ h.data⟩
  · rw [hentries, h.entries file ino hfile, Accounted, Accounted, hsaves, habandoned]
  · rw [hsaves, habandoned]
    exact h.left

/-- The file a call has after a step, among those of the others. -/
theorem exists_file_update {id : ℕ} {pc' : SavePc} {p : String × ℕ} :
    (∃ id', (Function.update s.saves id pc' id').file = some p) ↔
      pc'.file = some p ∨ ∃ id', id' ≠ id ∧ (s.saves id').file = some p := by
  constructor
  · rintro ⟨id', hid'⟩
    rcases eq_or_ne id' id with rfl | hne
    · rw [Function.update_self] at hid'
      exact Or.inl hid'
    · rw [Function.update_of_ne hne] at hid'
      exact Or.inr ⟨id', hne, hid'⟩
  · rintro (hpc | ⟨id', hne, hid'⟩)
    · exact ⟨id, by rwa [Function.update_self]⟩
    · exact ⟨id', by rwa [Function.update_of_ne hne]⟩

theorem exists_file_iff {id : ℕ} {p : String × ℕ} :
    (∃ id', (s.saves id').file = some p) ↔
      (s.saves id).file = some p ∨ ∃ id', id' ≠ id ∧ (s.saves id').file = some p := by
  have h := @exists_file_update s id (s.saves id) p
  rwa [Function.update_eq_self] at h

/-- The name of a file a call has is accounted for by that call only. -/
theorem Tidy.own {id : ℕ} {tmp : String} {ino' : ℕ} (h : Tidy store start events s)
    (hinv : Inv store r s) (hpc : (s.saves id).file = some (tmp, ino')) (ino : ℕ) :
    start.disk.entries tmp ≠ some ino ∧
      (¬ ∃ id', id' ≠ id ∧ (s.saves id').file = some (tmp, ino)) ∧
      (tmp, ino) ∉ store.abandoned start.sys events := by
  obtain ⟨hne, hentry, -⟩ := (hinv.saves id).file tmp ino' hpc
  have hsame : Accounted store start events s tmp ino → ino = ino' := fun haccount =>
    Option.some.inj (((h.entries tmp ino hne).mpr haccount).symm.trans hentry)
  refine ⟨fun hstart => ?_, ?_, fun hleft => ?_⟩
  · obtain rfl := hsame (Or.inl hstart)
    exact Nat.not_le_of_lt (start.used tmp ino hstart) (h.new id tmp ino hpc)
  · rintro ⟨id', hid, hpc'⟩
    exact hinv.other_tmp hid hpc hpc' rfl
  · obtain rfl := hsame (Or.inr (Or.inr hleft))
    exact (h.left tmp ino hleft).2 id tmp hpc

/-- One call goes on: the names, file by file. -/
theorem Tidy.entries_step {id : ℕ} {op : SaveOp} {disk' : Disk String Char} {pc' : SavePc}
    (h : Tidy store start events s) (hinv : Inv store r s)
    (habandoned : store.abandoned start.sys (events ++ [.save id op]) =
      store.abandoned start.sys events ++ ((s.saves id).abandons op).toList)
    (hmove : FileMove store.name s.disk disk' (s.saves id) pc' op) (file : String) (ino : ℕ)
    (hfile : file ≠ store.name) :
    disk'.entries file = some ino ↔
      Accounted store start (events ++ [.save id op])
        { s with disk := disk', saves := Function.update s.saves id pc' } file ino := by
  have hold := h.entries file ino hfile
  rw [Accounted, @exists_file_iff s id] at hold
  rw [Accounted, exists_file_update, habandoned]
  cases hmove with
  | stay hentries _ hpc hnone => simpa [hentries, hpc, hnone] using hold
  | @create tmp hne hfree hdisk hpc hpc' hnone =>
    subst hdisk
    rw [hpc', hnone, Option.toList_none, List.append_nil]
    by_cases htmp : file = tmp
    · -- the name was free, so nobody accounts for it but this call
      subst htmp
      have hnobody : ¬ s.disk.entries file = some ino := by
        rw [hfree]
        exact nofun
      rw [hold, hpc] at hnobody
      simp only [reduceCtorEq, false_or, not_or] at hnobody
      obtain ⟨hstart, hothers, hleft⟩ := hnobody
      simp [Disk.entries_create_self, hstart, hothers, hleft]
    · rw [Disk.entries_create_of_ne htmp, hold, hpc]
      simp [Ne.symm htmp]
  | @remove tmp ino' hentries _ hpc hpc' hnone =>
    rw [hentries file hfile, hpc', hnone, Option.toList_none, List.append_nil]
    by_cases htmp : file = tmp
    · subst htmp
      obtain ⟨hstart, hothers, hleft⟩ := h.own hinv hpc ino
      simp [hstart, hothers, hleft]
    · rw [if_neg htmp, hold, hpc]
      simp [Ne.symm htmp]
  | @abandon tmp ino' hdisk hpc hpc' hsome =>
    -- the file is no longer that of the call, and left behind instead
    subst hdisk
    rw [hold, hpc, hpc', hsome, Option.toList_some, List.mem_append, List.mem_singleton]
    constructor
    · rintro (hstart | (hown | hothers) | hleft)
      · exact Or.inl hstart
      · exact Or.inr (Or.inr (Or.inr (Option.some.inj hown).symm))
      · exact Or.inr (Or.inl (Or.inr hothers))
      · exact Or.inr (Or.inr (Or.inl hleft))
    · rintro (hstart | (hnone | hothers) | hleft | hown)
      · exact Or.inl hstart
      · cases hnone
      · exact Or.inr (Or.inl (Or.inr hothers))
      · exact Or.inr (Or.inr hleft)
      · exact Or.inr (Or.inl (Or.inl (congrArg some hown.symm)))

/-- A step of a `save` keeps the accounts. -/
theorem Tidy.save {id : ℕ} {op : SaveOp} {disk' : Disk String Char} {pc' : SavePc}
    (h : Tidy store start events s) (hinv : Inv store r s)
    (hrun : store.run start.sys events = some s)
    (hm : SaveMove store (store.token id) s.disk (s.saves id) op disk' pc') :
    Tidy store start (events ++ [.save id op])
      { s with disk := disk', saves := Function.update s.saves id pc' } := by
  have hmove := hm.fileMove fun tmp ino hpc =>
    ⟨((hinv.saves id).file tmp ino hpc).1, ((hinv.saves id).file tmp ino hpc).2.1⟩
  have habandoned : store.abandoned start.sys (events ++ [.save id op]) =
      store.abandoned start.sys events ++ ((s.saves id).abandons op).toList :=
    abandoned_append_singleton (.save id op) events hrun
  refine ⟨fun file ino hfile => h.entries_step hinv habandoned hmove file ino hfile, ?_, ?_, ?_,
    fun ino hlt => ?_⟩
  · exact h.next.trans hmove.next_le
  · intro id' tmp ino hpc
    rcases eq_or_ne id' id with rfl | hne
    · simp only [Function.update_self] at hpc
      rcases hmove.file hpc with hold | rfl
      · exact h.new id' tmp ino hold
      · exact h.next
    · simp only [Function.update_of_ne hne] at hpc
      exact h.new id' tmp ino hpc
  · intro tmp ino hleft
    rw [habandoned, List.mem_append] at hleft
    rcases hleft with hleft | hleft
    · obtain ⟨hname, hnobody⟩ := h.left tmp ino hleft
      refine ⟨hname, fun id' tmp' hpc => ?_⟩
      rcases eq_or_ne id' id with rfl | hne
      · simp only [Function.update_self] at hpc
        rcases hmove.file hpc with hold | rfl
        · exact hnobody id' tmp' hold
        · -- what was left behind is linked, so its number is in use
          have hentry := (h.entries tmp _ hname).mpr (Or.inr (Or.inr hleft))
          exact Nat.lt_irrefl _ (hinv.disk.used tmp _ hentry)
      · simp only [Function.update_of_ne hne] at hpc
        exact hnobody id' tmp' hpc
    · obtain ⟨hown, hgone⟩ := hmove.abandoned (Option.mem_toList.mp hleft)
      refine ⟨((hinv.saves id).file tmp ino hown).1, fun id' tmp' hpc => ?_⟩
      rcases eq_or_ne id' id with rfl | hne
      · simp only [Function.update_self, hgone] at hpc
        cases hpc
      · simp only [Function.update_of_ne hne] at hpc
        exact hne (hinv.apart id' id tmp' tmp ino hpc hown)
  · have hown : ∀ tmp, (s.saves id).file ≠ some (tmp, ino) := fun tmp hpc =>
      Nat.not_le_of_lt hlt (h.new id tmp ino hpc)
    exact (hm.data (Nat.lt_of_lt_of_le hlt h.next) hown).trans (h.data ino hlt)

/-- **The run lemma**, by induction on the run from its end. -/
theorem tidy_of_run : ∀ (events : List StoreEvent) {s : Sys},
    store.run start.sys events = some s → Tidy store start events s := by
  intro events
  induction events using List.reverseRecOn with
  | nil =>
    intro s hrun
    cases hrun
    exact .init
  | append_singleton events e ih =>
    intro s hrun
    obtain ⟨m, hm, hstep⟩ := run_append_singleton.mp hrun
    have htidy := ih hm
    obtain ⟨r, hr⟩ := reached_of_run events hm
    cases e with
    | save id op =>
      obtain ⟨⟨disk', pc'⟩, hsave, rfl⟩ := Option.map_eq_some_iff.mp hstep
      exact htidy.save hr.inv hm (move_of_saveStep hsave)
    | load id op =>
      obtain ⟨pc, -, rfl⟩ := Option.map_eq_some_iff.mp hstep
      exact htidy.other hm rfl rfl rfl rfl rfl
    | writeback | commitDir =>
      cases hstep
      exact htidy.other hm rfl rfl rfl rfl rfl
    | commit =>
      cases hstep
      obtain ⟨-, hcommit⟩ | ⟨op, rest, -, hcommit⟩ := m.disk.commit_cases <;>
        exact htidy.other hm (by rw [hcommit]) (by rw [hcommit]) (by rw [hcommit]) rfl rfl

/-- **No stray files.** In every run, with any number of saves at the same time,
failures and kills, a name beside the target is linked to a file if and only if
it was at the start, or a `save` under way has it, or it was left behind by one
that was killed or could not unlink it. When no `save` is under way and nothing
was left behind, all is as at the start. The files that were there are never
written to. -/
theorem directory_accounted (store : TokenStore) (start : Start store.name)
    (events : List StoreEvent) (s : Sys) (hrun : store.run start.sys events = some s) :
    (∀ file ino, file ≠ store.name → (s.disk.entries file = some ino ↔
      start.disk.entries file = some ino ∨ (∃ id, (s.saves id).file = some (file, ino)) ∨
        (file, ino) ∈ store.abandoned start.sys events)) ∧
    ((∀ id, (s.saves id).file = none) → store.abandoned start.sys events = [] →
      ∀ file, file ≠ store.name → s.disk.entries file = start.disk.entries file) ∧
    ∀ ino, ino < start.disk.next → s.disk.data ino = start.disk.data ino := by
  have htidy := tidy_of_run events hrun
  refine ⟨htidy.entries, fun hnone hnil file hfile => Option.ext fun ino => ?_, htidy.data⟩
  have hentry := htidy.entries file ino hfile
  simpa [Accounted, hnone, hnil] using hentry

/-- A `save` that is killed with its file. -/
def killedSave : List StoreEvent := [.save 0 .mkdir, .save 0 (.mkstemp "a"), .save 0 .kill]

/-- Its file is left. -/
theorem directory_accounted_of_kill :
    ∃ s, (TokenStore.ofToken "t" (.ofRefresh "new")).run (Start.absent "t").sys killedSave =
        some s ∧ s.disk.entries "ta.tmp" = some 0 := by
  let store : TokenStore := .ofToken "t" (.ofRefresh "new")
  have hsome : (store.run (Start.absent "t").sys killedSave).isSome = true := by decide +kernel
  obtain ⟨s, hrun⟩ := Option.isSome_iff_exists.mp hsome
  have hleft : ("ta.tmp", 0) ∈ store.abandoned (Start.absent "t").sys killedSave := by
    decide +kernel
  refine ⟨s, hrun, ?_⟩
  exact ((directory_accounted store (Start.absent "t") killedSave s hrun).1 "ta.tmp" 0
    (by decide)).mpr (Or.inr (Or.inr hleft))

/-! ## A save waits for nobody -/

/-- A step takes no directory away. -/
theorem isDir_of_step {e : StoreEvent} (hstep : store.step s e = some s')
    (h : s.disk.isDir = true) : s'.disk.isDir = true := by
  cases e with
  | save id op =>
    obtain ⟨⟨disk', pc'⟩, hsave, rfl⟩ := Option.map_eq_some_iff.mp hstep
    have hm := move_of_saveStep hsave
    generalize s.saves id = pc at hm
    cases hm with
    | mkdir => rfl
    | _ => exact h
  | load id op =>
    obtain ⟨pc, -, rfl⟩ := Option.map_eq_some_iff.mp hstep
    exact h
  | commit =>
    cases hstep
    simpa using h
  | writeback | commitDir =>
    cases hstep
    exact h

/-- A `save` that made the directory finds it. -/
theorem isDir_of_made {id : ℕ} : ∀ (events : List StoreEvent) {s : Sys},
    store.run start.sys events = some s → s.saves id = .made → s.disk.isDir = true := by
  intro events
  induction events using List.reverseRecOn with
  | nil =>
    intro s hrun hmade
    cases hrun
    cases hmade
  | append_singleton events e ih =>
    intro s hrun hmade
    obtain ⟨m, hm, hstep⟩ := run_append_singleton.mp hrun
    by_cases hbefore : m.saves id = .made
    · exact isDir_of_step hstep (ih hm hbefore)
    · cases e with
      | save id' op =>
        obtain ⟨⟨disk', pc'⟩, hsave, rfl⟩ := Option.map_eq_some_iff.mp hstep
        rcases eq_or_ne id id' with rfl | hne
        · simp only [Function.update_self] at hmade
          have hmove := move_of_saveStep hsave
          rw [hmade] at hmove
          generalize m.saves id = pc at hmove
          cases hmove with
          | mkdir => rfl
          | fail hfail => cases pc <;> cases hfail
        · simp only [Function.update_of_ne hne] at hmade
          exact absurd hmade hbefore
      | load id' op =>
        obtain ⟨pc, -, rfl⟩ := Option.map_eq_some_iff.mp hstep
        exact absurd hmade hbefore
      | writeback | commit | commitDir =>
        cases hstep
        exact absurd hmade hbefore

/-- By steps of its own a `save` comes to a state like this. -/
def Finishes (store : TokenStore) (id : ℕ) (P : Sys → Prop) (s : Sys) : Prop :=
  ∃ ops s', store.run s (List.map (.save id) ops) = some s' ∧
    (∀ id', id' ≠ id → s'.saves id' = s.saves id') ∧ s'.loads = s.loads ∧ P s'

/-- It returned, and a `load` on its own finds its token. -/
def Finished (store : TokenStore) (id : ℕ) (s : Sys) : Prop :=
  ∃ ino, s.saves id = .returned ino ∧
    store.loadAlone s.disk = .ok (some (.obj (store.token id).members))

section Finishes

variable {id : ℕ} {P : Sys → Prop}

theorem Finishes.here (h : P s) : Finishes store id P s := ⟨[], s, rfl, fun _ _ => rfl, rfl, h⟩

/-- One step first. -/
theorem Finishes.move (hinv : Inv store r s) {op : SaveOp} {disk' : Disk String Char}
    {pc' : SavePc}
    (hsave : store.saveStep (store.token id) s.disk (s.saves id) op = some (disk', pc'))
    (hnext : ∀ r', Inv store r' { s with
        disk := disk'
        saves := Function.update s.saves id pc' } →
      Finishes store id P { s with disk := disk', saves := Function.update s.saves id pc' }) :
    Finishes store id P s := by
  have hstep : store.step s (.save id op) = some { s with
      disk := disk'
      saves := Function.update s.saves id pc' } := by
    rw [TokenStore.step, hsave, Option.map_some]
  obtain ⟨r', hinv', -⟩ := hinv.step hstep
  obtain ⟨ops, s', hrun, hothers, hloads, hP⟩ := hnext r' hinv'
  refine ⟨op :: ops, s', ?_, fun id' hne => ?_, hloads, hP⟩
  · rw [List.map_cons, TokenStore.run, List.foldlM_cons, hstep]
    exact hrun
  · rw [hothers id' hne]
    exact Function.update_of_ne hne ..

variable {tmp : String} {ino : ℕ}

theorem finishes_closed (hinv : Inv store r s) (hpc : s.saves id = .closed tmp ino) :
    Finishes store id (Finished store id) s := by
  have hentry : s.disk.entries tmp = some ino :=
    ((hinv.saves id).file tmp ino (by rw [hpc]; rfl)).2.1
  have hsave : store.saveStep (store.token id) s.disk (s.saves id) .replace =
      some (s.disk.change (.rename tmp store.name ino), .returned ino) := by
    simp only [hpc, TokenStore.saveStep, hentry]
  refine .move hinv hsave fun r' hinv' => .here ⟨ino, Function.update_self .., ?_⟩
  have hversion := hinv'.returned id ino (Function.update_self ..)
  have hdir : s.disk.isDir = true := ((hinv.saves id).file tmp ino (by rw [hpc]; rfl)).2.2
  exact loadAlone_of_entry hdir (Disk.entries_rename_target ..)
    (hinv'.disk.held _ hversion).2.data

theorem finishes_synced (hinv : Inv store r s) (hpc : s.saves id = .synced tmp ino) :
    Finishes store id (Finished store id) s := by
  have hsave : store.saveStep (store.token id) s.disk (s.saves id) .close =
      some (s.disk, .closed tmp ino) := by
    rw [hpc]
    rfl
  exact .move hinv hsave fun _ hinv' => finishes_closed hinv' (Function.update_self ..)

theorem finishes_flushed (hinv : Inv store r s) (hpc : s.saves id = .flushed tmp ino) :
    Finishes store id (Finished store id) s := by
  have hsave : store.saveStep (store.token id) s.disk (s.saves id) .fsync =
      some (s.disk.fsync ino, .synced tmp ino) := by
    rw [hpc]
    rfl
  exact .move hinv hsave fun _ hinv' => finishes_synced hinv' (Function.update_self ..)

theorem finishes_written (hinv : Inv store r s) (hpc : s.saves id = .writing tmp ino []) :
    Finishes store id (Finished store id) s := by
  have hsave : store.saveStep (store.token id) s.disk (s.saves id) .flush =
      some (s.disk, .flushed tmp ino) := by
    rw [hpc]
    rfl
  exact .move hinv hsave fun _ hinv' => finishes_flushed hinv' (Function.update_self ..)

theorem finishes_writing {rest : List Char} (hinv : Inv store r s)
    (hpc : s.saves id = .writing tmp ino rest) : Finishes store id (Finished store id) s := by
  have hsave : store.saveStep (store.token id) s.disk (s.saves id) (.write rest.length) =
      some (s.disk.append ino rest, .writing tmp ino []) := by
    simp only [hpc, TokenStore.saveStep, List.take_length, List.drop_length]
  exact .move hinv hsave fun _ hinv' => finishes_written hinv' (Function.update_self ..)

theorem finishes_opened (hinv : Inv store r s) (hpc : s.saves id = .opened tmp ino) :
    Finishes store id (Finished store id) s := by
  have hsave : store.saveStep (store.token id) s.disk (s.saves id) .fdopen =
      some (s.disk, .writing tmp ino (serialise (store.token id))) := by
    rw [hpc]
    rfl
  exact .move hinv hsave fun _ hinv' => finishes_writing hinv' (Function.update_self ..)

theorem finishes_made {random : String} (hinv : Inv store r s) (hpc : s.saves id = .made)
    (hdir : s.disk.isDir = true) (hfree : s.disk.entries (tempName store.name random) = none) :
    Finishes store id (Finished store id) s := by
  have hsave : store.saveStep (store.token id) s.disk (s.saves id) (.mkstemp random) =
      some (s.disk.create (tempName store.name random),
        .opened (tempName store.name random) s.disk.next) := by
    simp [hpc, TokenStore.saveStep, hdir, hfree]
  exact .move hinv hsave fun _ hinv' => finishes_opened hinv' (Function.update_self ..)

theorem finishes_idle {random : String} (hinv : Inv store r s) (hpc : s.saves id = .idle)
    (hfree : s.disk.entries (tempName store.name random) = none) :
    Finishes store id (Finished store id) s := by
  have hsave : store.saveStep (store.token id) s.disk (s.saves id) .mkdir =
      some (s.disk.mkdir, .made) := by
    rw [hpc]
    rfl
  exact .move hinv hsave fun _ hinv' => finishes_made hinv' (Function.update_self ..) rfl hfree

/-- It raised, and its temporary name is free. -/
def CleanedUp (id : ℕ) (tmp : String) (s : Sys) : Prop :=
  s.saves id = .raised ∧ s.disk.entries tmp = none

theorem finishes_cleanup (hinv : Inv store r s) (hpc : s.saves id = .cleanup tmp ino) :
    Finishes store id (CleanedUp id tmp) s := by
  have hentry : s.disk.entries tmp = some ino :=
    ((hinv.saves id).file tmp ino (by rw [hpc]; rfl)).2.1
  have hsave : store.saveStep (store.token id) s.disk (s.saves id) .unlink =
      some (s.disk.change (.unlink tmp), .raised) := by
    simp only [hpc, TokenStore.saveStep, hentry]
  exact .move hinv hsave fun _ _ => .here ⟨Function.update_self .., Disk.entries_unlink_self _⟩

theorem finishes_unwinding {rest : List Char} (hinv : Inv store r s)
    (hpc : s.saves id = .unwinding tmp ino rest) : Finishes store id (CleanedUp id tmp) s := by
  have hsave : store.saveStep (store.token id) s.disk (s.saves id) .close =
      some (s.disk, .cleanup tmp ino) := by
    rw [hpc]
    cases rest <;> rfl
  exact .move hinv hsave fun _ hinv' => finishes_cleanup hinv' (Function.update_self ..)

end Finishes

/-- **A save waits for nobody.** In every state that can be reached, whatever
the other calls are in the middle of or have left undone, a `save` that is not
over can be finished by steps of its own: it returns, and a `load` then finds
its token; or, if an exception is on its way, it removes its temporary file. One
of the names that `mkstemp` may try has to be free. -/
theorem save_finishes (store : TokenStore) (start : Start store.name) (events : List StoreEvent)
    (s : Sys) (hrun : store.run start.sys events = some s) (id : ℕ)
    (hunder : (s.saves id).ended = false) (random : String)
    (hfree : s.disk.entries (tempName store.name random) = none) :
    Finishes store id (fun s' => Finished store id s' ∨
      ∃ tmp, (s.saves id).file.map Prod.fst = some tmp ∧ CleanedUp id tmp s') s := by
  obtain ⟨r, hr⟩ := reached_of_run events hrun
  have hdone : Finishes store id (Finished store id) s ∨
      ∃ tmp, (s.saves id).file.map Prod.fst = some tmp ∧
        Finishes store id (CleanedUp id tmp) s := by
    rcases hpc : s.saves id with
      _ | _ | ⟨tmp, ino⟩ | ⟨tmp, ino, rest⟩ | ⟨tmp, ino⟩ | ⟨tmp, ino⟩ | ⟨tmp, ino⟩ |
      ⟨tmp, ino, rest⟩ | ⟨tmp, ino⟩ | ino | _ | _
    · exact Or.inl (finishes_idle hr.inv hpc hfree)
    · exact Or.inl (finishes_made hr.inv hpc (isDir_of_made events hrun hpc) hfree)
    · exact Or.inl (finishes_opened hr.inv hpc)
    · exact Or.inl (finishes_writing hr.inv hpc)
    · exact Or.inl (finishes_flushed hr.inv hpc)
    · exact Or.inl (finishes_synced hr.inv hpc)
    · exact Or.inl (finishes_closed hr.inv hpc)
    · exact Or.inr ⟨tmp, rfl, finishes_unwinding hr.inv hpc⟩
    · exact Or.inr ⟨tmp, rfl, finishes_cleanup hr.inv hpc⟩
    all_goals
      rw [hpc] at hunder
      cases hunder
  rcases hdone with ⟨ops, s', hops, hothers, hloads, hP⟩ |
    ⟨tmp, htmp, ops, s', hops, hothers, hloads, hP⟩
  · exact ⟨ops, s', hops, hothers, hloads, Or.inl hP⟩
  · exact ⟨ops, s', hops, hothers, hloads, Or.inr ⟨tmp, htmp, hP⟩⟩

/-- Another `save` was killed with its file. -/
theorem save_finishes_of_kill :
    ∃ s, (TokenStore.ofToken "t" (.ofRefresh "new")).run (Start.absent "t").sys killedSave =
        some s ∧
      Finishes (.ofToken "t" (.ofRefresh "new")) 1
        (fun s' => Finished (.ofToken "t" (.ofRefresh "new")) 1 s' ∨
          ∃ tmp, (s.saves 1).file.map Prod.fst = some tmp ∧ CleanedUp 1 tmp s') s := by
  let store : TokenStore := .ofToken "t" (.ofRefresh "new")
  have hends : ((store.run (Start.absent "t").sys killedSave).map fun s =>
      ((s.saves 1).ended, s.disk.entries (tempName "t" "b"))) = some (false, none) := by
    decide +kernel
  obtain ⟨s, hrun, heq⟩ := Option.map_eq_some_iff.mp hends
  obtain ⟨hunder, hfree⟩ : (s.saves 1).ended = false ∧ s.disk.entries (tempName "t" "b") = none :=
    Prod.mk.injEq .. ▸ heq
  exact ⟨s, hrun, save_finishes store (Start.absent "t") killedSave s hrun 1 hunder "b" hfree⟩

end KgaGateway
