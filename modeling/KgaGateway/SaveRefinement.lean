import KgaGateway.FileTokenStore

/-!
# The program and the steps

`TokenStore.saveStep` says what a `save` can do next; `FileTokenStore.save` is
the program. Whatever the system does to the program, with a JSON token, there
are steps that do the same to the disk, and end in `returned` or `raised` as
the program does (`save_refines`), and `load` gives what the steps of a `load`
give (`load_eq_loadAlone`). So what `TokenInvariant` and the modules after it
say about all interleavings of steps holds of the program.
-/

namespace KgaGateway

open Program World

/-! ## Steps of one save -/

/-- The operations of one `save`, one after the other. -/
def TokenStore.saveRun (store : TokenStore) (token : Token) (s : Disk String Char × SavePc)
    (ops : List SaveOp) : Option (Disk String Char × SavePc) :=
  ops.foldlM (fun s op => store.saveStep token s.1 s.2 op) s

section Refinement

variable (store : TokenStore) (token : Token) (disk₀ : Disk String Char)

/-- Some operations lead to this disk, with the `save` here. -/
def Reaches (pc : SavePc) (disk : Disk String Char) : Prop :=
  ∃ ops, store.saveRun token (disk₀, .idle) ops = some (disk, pc)

/-- Some operations lead to the disk of a world; where they lead the `save`
depends on the buffer. -/
def On (pc : List Char → SavePc) (w : World) : Prop :=
  Reaches store token disk₀ (pc w.buffer) w.disk

/-- An exception is leaving the `with` block. -/
def OnUnwinding (tmpName : String) (fd : ℕ) (w : World) : Prop :=
  ∃ rest, On store token disk₀ (fun buffer => .unwinding tmpName fd (buffer ++ rest)) w

variable {store token disk₀} {disk disk' : Disk String Char} {pc pc' : SavePc}

theorem Reaches.step (h : Reaches store token disk₀ pc disk) {o : SaveOp}
    (hstep : store.saveStep token disk pc o = some (disk', pc')) :
    Reaches store token disk₀ pc' disk' := by
  obtain ⟨ops, hops⟩ := h
  refine ⟨ops ++ [o], ?_⟩
  rw [TokenStore.saveRun] at hops ⊢
  simp only [List.foldlM_append, hops, List.foldlM_cons, List.foldlM_nil, Option.bind_eq_bind,
    Option.bind_some, hstep]
  rfl

theorem Reaches.fail (h : Reaches store token disk₀ pc disk) (hfail : pc.fail = some pc') :
    Reaches store token disk₀ pc' disk := by
  apply h.step (o := .fail)
  rw [TokenStore.saveStep.eq_def]
  cases pc <;> simp_all [SavePc.fail]

/-! ## The operations -/

variable {plan : Plan} {tmpName : String} {fd : ℕ} {rest : List Char}

/-- What reaches the file is written by a step, while the file is written to and
while it is closed. -/
theorem On.drain {mk : List Char → SavePc} {w : World}
    (hmk : ∀ disk content rest, store.saveStep token disk (mk (content ++ rest))
      (.write content.length) = some (disk.append fd content, mk rest))
    (h : On store token disk₀ (fun buffer => mk (buffer ++ rest)) w) (n : ℕ) :
    On store token disk₀ (fun buffer => mk (buffer ++ rest)) (w.drain fd n) := by
  rcases w.drain_cases fd n with ⟨-, hdrain⟩ | hdrain
  · rwa [hdrain]
  · rw [hdrain]
    apply Reaches.step h (o := .write (w.buffer.take n).length)
    dsimp only
    rw [← hmk w.disk (w.buffer.take n), ← List.append_assoc, List.take_append_drop]

theorem saveStep_write (disk : Disk String Char) (content rest : List Char) :
    store.saveStep token disk (.writing tmpName fd (content ++ rest)) (.write content.length) =
      some (disk.append fd content, .writing tmpName fd rest) := by
  rw [TokenStore.saveStep, List.take_left, List.drop_left]

theorem saveStep_writeUnwinding (disk : Disk String Char) (content rest : List Char) :
    store.saveStep token disk (.unwinding tmpName fd (content ++ rest)) (.write content.length) =
      some (disk.append fd content, .unwinding tmpName fd rest) := by
  rw [TokenStore.saveStep, List.take_left, List.drop_left]

/-- An attempt is no step, unless it fails. -/
theorem attempt_refines {pc' : List Char → SavePc} {pc : List Char → SavePc} (point : SavePoint)
    (hfail : ∀ buffer, (pc buffer).fail = some (pc' buffer)) :
    Triple (On store token disk₀ pc) (plan.attempt point) (fun _ => On store token disk₀ pc)
      (fun _ => On store token disk₀ pc') := by
  rw [Plan.attempt]
  split
  · exact fun w hw => Reaches.fail hw (hfail w.buffer)
  · exact Triple.pure (Q := fun _ => On store token disk₀ pc) ()

theorem mkdir_refines : Triple (fun w => w = ⟨disk₀, [], []⟩) plan.mkdir
    (fun _ w => w.buffer = [] ∧ On store token disk₀ (fun _ => .made) w)
    (fun _ => On store token disk₀ fun _ => .raised) := by
  rintro w rfl
  rw [Plan.mkdir, Plan.attempt]
  have hstart : Reaches store token disk₀ .idle disk₀ := ⟨[], rfl⟩
  cases plan.fault .mkdir with
  | some e => exact hstart.fail rfl
  | none => exact ⟨rfl, hstart.step (o := .mkdir) rfl⟩

theorem mkstemp_refines : Triple (fun w => w.buffer = [] ∧ On store token disk₀ (fun _ => .made) w)
    (plan.mkstemp store.name)
    (fun p w => w.buffer = [] ∧ On store token disk₀ (fun _ => .opened p.2 p.1) w)
    (fun _ => On store token disk₀ fun _ => .raised) := by
  rintro w ⟨hbuffer, hmade⟩
  rw [Plan.mkstemp, Plan.attempt]
  cases plan.fault .mkstemp with
  | some e => exact Reaches.fail hmade rfl
  | none =>
    show EndsWith _ _ (if w.disk.isDir then _ else _)
    by_cases hdir : w.disk.isDir = true
    · rw [if_pos hdir]
      cases hfind : plan.candidates.find? fun random =>
          (w.disk.entries (tempName store.name random)).isNone with
      | none => exact Reaches.fail hmade rfl
      | some random =>
        have hfree : (w.disk.entries (tempName store.name random)).isNone = true :=
          List.find?_some
            (p := fun random => (w.disk.entries (tempName store.name random)).isNone) hfind
        refine ⟨hbuffer, Reaches.step hmade (o := .mkstemp random) ?_⟩
        rw [TokenStore.saveStep, hdir, hfree]
        rfl
    · rw [if_neg hdir]
      exact Reaches.fail hmade rfl

theorem write_refines (i : ℕ) (chunk : List Char) :
    Triple (On store token disk₀ fun buffer => .writing tmpName fd (buffer ++ (chunk ++ rest)))
      (plan.write fd i chunk)
      (fun _ => On store token disk₀ fun buffer => .writing tmpName fd (buffer ++ rest))
      (fun _ => OnUnwinding store token disk₀ tmpName fd) := by
  intro w hw
  have hbuffered : On store token disk₀ (fun buffer => .writing tmpName fd (buffer ++ rest))
      { w with buffer := w.buffer ++ chunk } := by
    rw [On, List.append_assoc]
    exact hw
  have hwritten := hbuffered.drain saveStep_write (plan.reaches (.chunk i))
  refine EndsWith.imp (attempt_refines (.chunk i) (fun _ => rfl) _ hwritten) (fun _ _ => id) ?_
  exact fun _ w hw => ⟨rest, hw⟩

/-- By induction on the chunks. -/
theorem writeChunks_refines (chunks : List (List Char)) : ∀ i : ℕ,
    Triple (On store token disk₀ fun buffer =>
        .writing tmpName fd (buffer ++ (chunks.flatten ++ rest)))
      (plan.writeChunks fd i chunks)
      (fun _ => On store token disk₀ fun buffer => .writing tmpName fd (buffer ++ rest))
      (fun _ => OnUnwinding store token disk₀ tmpName fd) := by
  induction chunks with
  | nil => exact fun i => Triple.pure (Q := fun _ => On store token disk₀ _) ()
  | cons chunk chunks ih =>
    intro i
    rw [List.flatten_cons, List.append_assoc]
    exact (write_refines i chunk).bind fun _ => ih (i + 1)

/-- A JSON token has a text, so the dump raises only where the system does. -/
theorem dump_refines : Triple
    (On store token disk₀ fun buffer => .writing tmpName fd (buffer ++ serialise token))
    (plan.dump fd (PyJson.ofJson (.obj token.members)))
    (fun _ => On store token disk₀ fun buffer => .writing tmpName fd buffer)
    (fun _ => OnUnwinding store token disk₀ tmpName fd) := by
  obtain ⟨hencodable, htext, -⟩ := PyJson.ofJson_spec (.obj token.members)
  obtain ⟨hresult, hflat⟩ := PyJson.iterencode_spec (PyJson.ofJson (.obj token.members))
  have hchunks : Triple
      (On store token disk₀ fun buffer => .writing tmpName fd (buffer ++ (serialise token ++ [])))
      (plan.writeChunks fd 0 (PyJson.iterencode (PyJson.ofJson (.obj token.members))).trace)
      (fun _ => On store token disk₀ fun buffer => .writing tmpName fd (buffer ++ []))
      (fun _ => OnUnwinding store token disk₀ tmpName fd) := by
    rw [serialise, ← htext, ← hflat hencodable]
    exact writeChunks_refines _ 0
  simp only [List.append_nil] at hchunks
  rw [Plan.dump]
  rw [hresult, hencodable]
  exact hchunks.bind fun _ => Triple.pure (Q := fun _ => On store token disk₀ _) ()

theorem fdopen_refines : Triple
    (fun w => w.buffer = [] ∧ On store token disk₀ (fun _ => .opened tmpName fd) w)
    (plan.attempt .fdopen)
    (fun _ => On store token disk₀ fun buffer =>
      .writing tmpName fd (buffer ++ serialise token))
    (fun _ => On store token disk₀ fun _ => .cleanup tmpName fd) := by
  rintro w ⟨hbuffer, hopened⟩
  rw [Plan.attempt]
  cases plan.fault .fdopen with
  | some e => exact Reaches.fail hopened rfl
  | none =>
    show Reaches store token disk₀ (.writing tmpName fd (w.buffer ++ serialise token)) w.disk
    rw [hbuffer]
    exact Reaches.step hopened (o := .fdopen) rfl

/-- Writing the buffer out, when that is all there is to write. -/
theorem flush_refines : Triple
    (On store token disk₀ fun buffer => .writing tmpName fd buffer) (plan.flush fd)
    (fun _ w => w.buffer = [] ∧ On store token disk₀ (fun _ => .flushed tmpName fd) w)
    (fun _ => OnUnwinding store token disk₀ tmpName fd) := by
  intro w hw
  have hwriting : On store token disk₀ (fun buffer => .writing tmpName fd (buffer ++ [])) w := by
    simpa only [On, List.append_nil] using hw
  rw [Plan.flush, Plan.writeOut]
  cases plan.fault .flush with
  | some e => exact ⟨[], Reaches.fail (hwriting.drain saveStep_write _) rfl⟩
  | none =>
    have hbuffer : (w.drain fd w.buffer.length).buffer = [] := by
      rw [buffer_drain, List.drop_length]
    have hwritten := hwriting.drain saveStep_write w.buffer.length
    simp only [On, hbuffer] at hwritten
    exact ⟨hbuffer, Reaches.step hwritten (o := .flush) rfl⟩

theorem fsync_refines : Triple
    (fun w => w.buffer = [] ∧ On store token disk₀ (fun _ => .flushed tmpName fd) w)
    (plan.fsync fd)
    (fun _ w => w.buffer = [] ∧ On store token disk₀ (fun _ => .synced tmpName fd) w)
    (fun _ => OnUnwinding store token disk₀ tmpName fd) := by
  rintro w ⟨hbuffer, hflushed⟩
  rw [Plan.fsync, Plan.attempt]
  cases plan.fault .fsync with
  | some e =>
    refine ⟨[], ?_⟩
    simp only [On, hbuffer]
    exact Reaches.fail hflushed rfl
  | none => exact ⟨hbuffer, Reaches.step hflushed (o := .fsync) rfl⟩

theorem close_refines : Triple
    (fun w => w.buffer = [] ∧ On store token disk₀ (fun _ => .synced tmpName fd) w)
    (plan.close fd) (fun _ => On store token disk₀ fun _ => .closed tmpName fd)
    (fun _ => On store token disk₀ fun _ => .cleanup tmpName fd) := by
  rintro w ⟨hbuffer, hsynced⟩
  rw [Plan.close, Plan.writeOut]
  rw [drain_of_nil hbuffer, drain_of_nil hbuffer]
  cases plan.fault .close with
  | some e => exact Reaches.fail hsynced rfl
  | none => exact Reaches.step hsynced (o := .close) rfl

theorem closeUnwinding_refines : Triple (OnUnwinding store token disk₀ tmpName fd)
    (plan.close fd) (fun _ => On store token disk₀ fun _ => .cleanup tmpName fd)
    (fun _ => On store token disk₀ fun _ => .cleanup tmpName fd) := by
  rintro w ⟨rest, hunwinding⟩
  rw [Plan.close, Plan.writeOut]
  cases plan.fault .close with
  | some e => exact Reaches.fail (hunwinding.drain saveStep_writeUnwinding _) rfl
  | none =>
    exact Reaches.step (hunwinding.drain saveStep_writeUnwinding _) (o := .close) rfl

theorem replace_refines : Triple (On store token disk₀ fun _ => .closed tmpName fd)
    (plan.replace tmpName store.name)
    (fun _ w => ∃ ino, On store token disk₀ (fun _ => .returned ino) w)
    (fun _ => On store token disk₀ fun _ => .cleanup tmpName fd) := by
  rw [Plan.replace]
  refine (attempt_refines .replace fun _ => rfl).bind fun _ w hw => ?_
  cases hentry : w.disk.entries tmpName with
  | none =>
    simp only
    exact Reaches.fail hw rfl
  | some ino =>
    simp only
    refine ⟨ino, Reaches.step hw (o := .replace) ?_⟩
    simp only [TokenStore.saveStep, hentry]

theorem unlink_refines : Triple (On store token disk₀ fun _ => .cleanup tmpName fd)
    (plan.unlink tmpName) (fun _ => On store token disk₀ fun _ => .raised)
    (fun _ => On store token disk₀ fun _ => .raised) := by
  intro w hw
  rw [Plan.unlink, Plan.attempt]
  cases hentry : w.disk.entries tmpName with
  | none =>
    apply Reaches.step hw (o := .unlink)
    simp only [TokenStore.saveStep, hentry]
  | some ino =>
    cases plan.fault .unlink with
    | some e => exact Reaches.fail hw rfl
    | none =>
      apply Reaches.step hw (o := .unlink)
      simp only [TokenStore.saveStep, hentry]

/-- **The program does what the steps can do**: with a JSON token, and whatever
the system does, some steps change the disk in the same way, and end as the
program ends. -/
theorem save_refines : Triple (fun w => w = ⟨disk₀, [], []⟩)
    (FileTokenStore.save ⟨store.name, store.reader⟩ plan (PyJson.ofJson (.obj token.members)))
    (fun _ w => ∃ ino, Reaches store token disk₀ (.returned ino) w.disk)
    (fun _ w => Reaches store token disk₀ .raised w.disk) := by
  rw [FileTokenStore.save]
  refine mkdir_refines.bind fun _ => mkstemp_refines.bind ?_
  rintro ⟨fd, tmpName⟩
  refine Triple.tryExcept (F := fun _ => On store token disk₀ fun _ => .cleanup tmpName fd)
    ?_ fun e => ?_
  · refine fdopen_refines.bind fun _ => Triple.bind (Triple.tryFinally ?_
      (fun _ => close_refines) fun _ => closeUnwinding_refines) fun _ => replace_refines
    exact dump_refines.bind fun _ => flush_refines.bind fun _ => fsync_refines
  · refine Triple.bind (Q := fun _ => On store token disk₀ fun _ => .raised) ?_
      fun _ => Triple.raise (E := fun _ => On store token disk₀ fun _ => .raised) e
    refine Triple.tryExcept unlink_refines fun e' => ?_
    by_cases he : e' = .fileNotFoundError
    · rw [if_pos he]
      exact Triple.pure (Q := fun _ => On store token disk₀ _) ()
    · rw [if_neg he]
      exact fun w hw => hw

end Refinement

/-! ## Loading -/

/-- Where the target holds a JSON token, or is not there, the program loads what
the steps load. -/
theorem load_eq_loadAlone (store : TokenStore) {disk : Disk String Char}
    (h : ∀ content ∈ disk.read store.name, ∃ token : Token, content = serialise token) :
    FileTokenStore.load ⟨store.name, store.reader⟩ disk =
      (store.loadAlone disk).map (Option.map PyJson.ofJson) := by
  simp only [FileTokenStore.load, TokenStore.loadAlone]
  rw [Disk.read] at h ⊢
  cases hentry : (if disk.isDir then disk.entries store.name else none) with
  | none => rfl
  | some ino =>
    obtain ⟨token, htoken⟩ := h (disk.data ino) (by rw [hentry]; rfl)
    obtain ⟨hencodable, htext, -⟩ := PyJson.ofJson_spec (.obj token.members)
    have hload : PyJson.load store.reader (serialise token) =
        some (PyJson.ofJson (.obj token.members)) := by
      rw [serialise, ← htext, PyJson.load_text hencodable, PyJson.jsonize_ofJson _ token.distinct]
    simp only [Option.map_some, htoken, hload, parseContent_serialise]
    rfl

/-! ## Runs of the system -/

/-- The operations of one `save` are events of the system. -/
theorem run_of_saveRun {store : TokenStore} (id : ℕ) {ops : List SaveOp} : ∀ (s : Sys)
    {disk : Disk String Char} {pc : SavePc},
    store.saveRun (store.token id) (s.disk, s.saves id) ops = some (disk, pc) →
      store.run s (ops.map (.save id)) =
        some { s with disk := disk, saves := Function.update s.saves id pc } := by
  induction ops with
  | nil =>
    intro s disk pc h
    obtain ⟨rfl, rfl⟩ := Prod.mk.inj (Option.some.inj h)
    rw [Function.update_eq_self]
    rfl
  | cons op ops ih =>
    intro s disk pc h
    rw [TokenStore.saveRun, List.foldlM_cons, Option.bind_eq_bind,
      Option.bind_eq_some_iff] at h
    obtain ⟨⟨disk', pc'⟩, hstep, hops⟩ := h
    have hnext : store.step s (.save id op) =
        some { s with disk := disk', saves := Function.update s.saves id pc' } := by
      rw [TokenStore.step, hstep]
      rfl
    rw [List.map_cons, TokenStore.run, List.foldlM_cons, hnext]
    have htail := @ih { s with disk := disk', saves := Function.update s.saves id pc' } disk pc
      (by dsimp only; rwa [Function.update_self])
    rw [TokenStore.run] at htail
    rw [Option.bind_eq_bind, Option.bind_some, htail, Function.update_idem]

/-- A program that runs alone from a start is a run of the system in which one
`save` takes all the steps. -/
theorem save_isRun (store : TokenStore) (id : ℕ) (plan : Plan) (start : Start store.name) :
    let ending := FileTokenStore.save ⟨store.name, store.reader⟩ plan
      (PyJson.ofJson (.obj (store.token id).members)) start.directory.world
    ∃ events s, store.run start.sys events = some s ∧ s.disk = ending.2.disk ∧
      (∀ id', id' ≠ id → s.saves id' = .idle) ∧
        match ending.1 with
        | .ok _ => ∃ ino, s.saves id = .returned ino
        | .error _ => s.saves id = .raised := by
  have hends := @save_refines store (store.token id) start.disk plan start.directory.world rfl
  dsimp only
  rcases hending : FileTokenStore.save ⟨store.name, store.reader⟩ plan
    (PyJson.ofJson (.obj (store.token id).members)) start.directory.world with ⟨e | _, w⟩
  · rw [hending] at hends
    obtain ⟨ops, hops⟩ := hends
    refine ⟨_, _, run_of_saveRun id start.sys hops, rfl, ?_, ?_⟩
    · exact fun id' hid => Function.update_of_ne hid ..
    · exact Function.update_self ..
  · rw [hending] at hends
    obtain ⟨ino, ops, hops⟩ := hends
    refine ⟨_, _, run_of_saveRun id start.sys hops, rfl, ?_, ino, ?_⟩
    · exact fun id' hid => Function.update_of_ne hid ..
    · exact Function.update_self ..

end KgaGateway
