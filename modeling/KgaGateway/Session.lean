import KgaGateway.FileTokenStore

/-!
# Calls one after another

The files of several stores are in one directory. Calls are made on them, one
after another: tokens of any kind are saved, at any operation a `save` may fail,
and what could not be unlinked stays behind.

Each store is a register all the same (`session_explains`): a `load` gives the
token of the last `save` on that store that returned, and no other call shows.
A temporary file is no matter, as long as no store has a name of that form.
-/

namespace KgaGateway

open World Program

/-! ## What a save leaves of the directory -/

/-- A name `mkstemp` makes for the store. -/
def IsTemp (name file : String) : Prop := ∃ random, file = tempName name random

/-- A name that ends in another way is no temporary name. -/
theorem not_isTemp {name file : String} (h : file.toList.getLast? ≠ some 'p') :
    ¬ IsTemp name file := by
  rintro ⟨random, rfl⟩
  refine h ?_
  simp only [tempName, String.toList_append]
  rw [List.getLast?_append_of_ne_nil _ (by decide)]
  rfl

/-- Every link is to a file in use, and there is none without a directory. -/
structure Disk.Sound (disk : Disk String Char) : Prop where
  used : ∀ file ino, disk.entries file = some ino → ino < disk.next
  noLink : disk.isDir = false → ∀ file, disk.entries file = none

/-- The directory of a sound disk. -/
def Disk.Sound.directory {disk : Disk String Char} (h : disk.Sound) : Directory :=
  ⟨disk, h.used, h.noLink⟩

/-- So far a `save` of this store changed links of temporary names only. -/
structure Clean (name : String) (disk₀ disk : Disk String Char) : Prop where
  sound : disk.Sound
  entries : ∀ file, ¬ IsTemp name file → disk.entries file = disk₀.entries file

section Clean

variable {name tmpName : String} {disk₀ disk : Disk String Char}

theorem Disk.Sound.isDir (h : disk.Sound) {file : String} {ino : ℕ}
    (hentry : disk.entries file = some ino) : disk.isDir = true := by
  cases hdir : disk.isDir with
  | true => rfl
  | false =>
    rw [h.noLink hdir] at hentry
    cases hentry

/-- A change that links a name to a file in use. -/
theorem Disk.Sound.change (h : disk.Sound) (hdir : disk.isDir = true) {op : DirOp String}
    (hop : ∀ ino, op.file = some ino → ino < disk.next) : (disk.change op).Sound where
  used file ino hentry := (DirOp.file_of_apply hentry).elim (h.used file ino) (hop ino)
  noLink hno := absurd hdir (by simpa [Disk.change] using hno)

theorem Disk.Sound.create (h : disk.Sound) (hdir : disk.isDir = true) (file : String) :
    (disk.create file).Sound where
  used file' ino hentry := by
    have happlied : (DirOp.link file disk.next).apply disk.entries file' = some ino := hentry
    rcases DirOp.file_of_apply happlied with hold | hnew
    · exact Nat.lt_succ_of_lt (h.used file' ino hold)
    · obtain rfl := Option.some.inj hnew
      exact Nat.lt_succ_self _
  noLink hno := absurd hdir (by simpa [Disk.create, Disk.change] using hno)

theorem Clean.mkdir (h : Clean name disk₀ disk) : Clean name disk₀ disk.mkdir :=
  ⟨⟨h.sound.used, fun hno => absurd hno (by simp [Disk.mkdir])⟩, h.entries⟩

theorem Clean.append (h : Clean name disk₀ disk) (ino : ℕ) (content : List Char) :
    Clean name disk₀ (disk.append ino content) := ⟨⟨h.sound.used, h.sound.noLink⟩, h.entries⟩

theorem Clean.fsync (h : Clean name disk₀ disk) (ino : ℕ) : Clean name disk₀ (disk.fsync ino) :=
  ⟨⟨h.sound.used, h.sound.noLink⟩, h.entries⟩

theorem Clean.create (h : Clean name disk₀ disk) (hdir : disk.isDir = true) (random : String) :
    Clean name disk₀ (disk.create (tempName name random)) where
  sound := h.sound.create hdir _
  entries file hfile := by
    have hne : file ≠ tempName name random := fun he => hfile ⟨random, he⟩
    exact (Function.update_of_ne hne ..).trans (h.entries file hfile)

theorem Disk.Sound.unlink (h : disk.Sound) (file : String) :
    (disk.change (.unlink file)).Sound where
  used file' ino hentry := by
    have happlied : (DirOp.unlink file).apply disk.entries file' = some ino := hentry
    rcases DirOp.file_of_apply happlied with hold | hnew
    · exact h.used file' ino hold
    · cases hnew
  noLink hno file' := by
    have hnone : disk.entries = fun _ => none := funext (h.noLink hno)
    simp only [Disk.change, DirOp.apply, hnone, Function.update_apply, ite_self]

theorem Clean.unlink (h : Clean name disk₀ disk) (htemp : IsTemp name tmpName) :
    Clean name disk₀ (disk.change (.unlink tmpName)) where
  sound := h.sound.unlink tmpName
  entries file hfile := by
    have hne : file ≠ tmpName := fun he => hfile (he ▸ htemp)
    exact (Function.update_of_ne hne ..).trans (h.entries file hfile)

theorem Clean.drain {w : World} (h : Clean name disk₀ w.disk) (fd n : ℕ) :
    Clean name disk₀ (w.drain fd n).disk := by
  rcases w.drain_cases fd n with ⟨-, hdrain⟩ | hdrain <;> rw [hdrain]
  · exact h
  · exact h.append _ _

end Clean

namespace Plan

variable {plan : Plan} {name tmpName : String} {disk₀ : Disk String Char}

/-- The disk of a world is clean. -/
abbrev CleanAt (name : String) (disk₀ : Disk String Char) (w : World) : Prop :=
  Clean name disk₀ w.disk

theorem attempt_keeps {J : Disk String Char → Prop} (point : SavePoint) :
    Keeps (fun w => J w.disk) (plan.attempt point) := by
  rw [attempt]
  split
  · exact fun _ hw => hw
  · exact Keeps.pure _

theorem mkdir_keeps : Keeps (CleanAt name disk₀) plan.mkdir := by
  rw [mkdir]
  exact (attempt_keeps .mkdir).bind fun _ _ hw => hw.mkdir

theorem mkstemp_keeps : Triple (CleanAt name disk₀) (plan.mkstemp name)
    (fun p w => IsTemp name p.2 ∧ CleanAt name disk₀ w) fun _ => CleanAt name disk₀ := by
  rw [mkstemp]
  refine Triple.bind (attempt_keeps .mkstemp) fun _ w hw => ?_
  cases hdir : w.disk.isDir with
  | false =>
    rw [if_neg (by simp)]
    exact hw
  | true =>
    rw [if_pos rfl]
    cases plan.candidates.find? fun random => (w.disk.entries (tempName name random)).isNone with
    | none => exact hw
    | some random => exact ⟨⟨random, rfl⟩, hw.create hdir random⟩

theorem writeChunks_keeps (fd : ℕ) (chunks : List (List Char)) : ∀ i : ℕ,
    Keeps (CleanAt name disk₀) (plan.writeChunks fd i chunks) := by
  induction chunks with
  | nil => exact fun _ => Keeps.pure _
  | cons chunk chunks ih =>
    intro i
    refine Keeps.bind (fun w hw => ?_) fun _ => ih (i + 1)
    have hdrained : Clean name disk₀
        ({ w with buffer := w.buffer ++ chunk }.drain fd (plan.reaches (.chunk i))).disk :=
      @Clean.drain _ _ { w with buffer := w.buffer ++ chunk } hw fd _
    exact attempt_keeps (.chunk i) _ hdrained

theorem dump_keeps (fd : ℕ) (token : PyVal) : Keeps (CleanAt name disk₀) (plan.dump fd token) := by
  rw [dump]
  refine (writeChunks_keeps fd _ 0).bind fun _ => ?_
  cases (PyJson.iterencode token).result with
  | ok _ => exact Keeps.pure _
  | error _ => exact fun _ hw => hw

theorem writeOut_keeps (point : SavePoint) (fd : ℕ) :
    Keeps (CleanAt name disk₀) (plan.writeOut point fd) := by
  intro w hw
  rw [writeOut]
  cases plan.fault point with
  | some e => exact hw.drain fd _
  | none => exact hw.drain fd _

theorem fsync_keeps (fd : ℕ) : Keeps (CleanAt name disk₀) (plan.fsync fd) := by
  rw [fsync]
  exact (attempt_keeps .fsync).bind fun _ _ hw => hw.fsync fd

/-- Moving the file over the target changes the target, unless it fails. -/
theorem replace_keeps : Triple (CleanAt name disk₀) (plan.replace tmpName name)
    (fun _ w => w.disk.Sound) fun _ => CleanAt name disk₀ := by
  rw [replace]
  refine Triple.bind (attempt_keeps .replace) fun _ w hw => ?_
  cases hentry : w.disk.entries tmpName with
  | none => exact hw
  | some ino =>
    refine hw.sound.change (hw.sound.isDir hentry) fun ino' hino => ?_
    obtain rfl := Option.some.inj hino
    exact hw.sound.used _ _ hentry

theorem unlink_keeps (htemp : IsTemp name tmpName) :
    Keeps (CleanAt name disk₀) (plan.unlink tmpName) := by
  intro w hw
  rw [unlink]
  cases hentry : w.disk.entries tmpName with
  | none => exact hw
  | some ino =>
    exact Keeps.bind (attempt_keeps .unlink) (fun _ _ hw => hw.unlink htemp) w hw

end Plan

namespace FileTokenStore

/-- A `save` leaves a sound disk, and one that raises has changed links of
temporary names only. -/
theorem save_keeps (store : FileTokenStore) (plan : Plan) (token : PyVal)
    (disk₀ : Disk String Char) :
    Triple (Plan.CleanAt store.name disk₀) (store.save plan token) (fun _ w => w.disk.Sound)
      fun _ => Plan.CleanAt store.name disk₀ := by
  rw [save]
  refine Triple.bind Plan.mkdir_keeps fun _ => Triple.bind Plan.mkstemp_keeps ?_
  rintro ⟨fd, tmpName⟩
  refine Triple.assume fun htemp => Triple.tryExcept
    (F := fun _ => Plan.CleanAt store.name disk₀) ?_ fun e => ?_
  · refine Triple.bind (Plan.attempt_keeps .fdopen) fun _ => Triple.bind ?_
      fun _ => Plan.replace_keeps
    refine Keeps.tryFinally ?_ (Plan.writeOut_keeps .close fd)
    exact (Plan.dump_keeps fd token).bind fun _ =>
      (Plan.writeOut_keeps .flush fd).bind fun _ => Plan.fsync_keeps fd
  · refine Triple.bind (Q := fun _ => Plan.CleanAt store.name disk₀) ?_
      fun _ => Triple.raise (E := fun _ => Plan.CleanAt store.name disk₀) e
    refine Triple.tryExcept (Plan.unlink_keeps htemp) fun e' => ?_
    by_cases he : e' = .fileNotFoundError
    · rw [if_pos he]
      exact Keeps.pure _
    · rw [if_neg he]
      exact fun _ hw => hw

/-- A `save` that raises leaves every name as it reads, but a temporary one. -/
theorem read_of_save_error (store : FileTokenStore) (plan : Plan) (token : PyVal)
    (dir : Directory) {e : SaveExn} (h : (store.save plan token dir.world).1 = .error e)
    {file : String} (hfile : ¬ IsTemp store.name file) :
    (store.save plan token dir.world).2.disk.read file = dir.disk.read file := by
  have hspec := store.save_spec plan dir token dir.world rfl
  have hkeeps := store.save_keeps plan token dir.disk dir.world
    ⟨⟨dir.used, dir.noLink⟩, fun _ _ => rfl⟩
  rcases hending : store.save plan token dir.world with ⟨e' | _, w⟩
  · rw [hending] at hspec hkeeps
    rcases hspec with ⟨-, hsame⟩ | ⟨-, tmpName, hfree, hread⟩
    · exact hsame.read file
    · by_cases he : file = tmpName
      · -- the name was free, and it is no temporary one
        subst he
        have hentry := hkeeps.entries file hfile
        rw [hfree] at hentry
        simp only [Disk.read, hentry, hfree, ite_self, Option.map_none]
      · exact hread file he
  · rw [hending] at h
    cases h

theorem sound_of_save (store : FileTokenStore) (plan : Plan) (token : PyVal) (dir : Directory) :
    (store.save plan token dir.world).2.disk.Sound := by
  have hkeeps := store.save_keeps plan token dir.disk dir.world
    ⟨⟨dir.used, dir.noLink⟩, fun _ _ => rfl⟩
  rcases hending : store.save plan token dir.world with ⟨e | _, w⟩
  · rw [hending] at hkeeps
    exact hkeeps.sound
  · rw [hending] at hkeeps
    exact hkeeps

end FileTokenStore

/-! ## Sessions -/

/-- A call on one of the stores, by the name of its file. -/
inductive StoreCall : Type where
  | save : String → Plan → PyVal → StoreCall
  | load : String → StoreCall

/-- The store a call is on. -/
def StoreCall.name : StoreCall → String
  | save name _ _ => name
  | load name => name

/-- How a call ends. -/
inductive StoreAnswer : Type where
  | saved : Except SaveExn Unit → StoreAnswer
  | loaded : Except LoadError (Option PyVal) → StoreAnswer

/-- Make a call. -/
def StoreCall.perform (reader : FloatReader) (disk : Disk String Char) :
    StoreCall → StoreAnswer × Disk String Char
  | save name plan token =>
    let ending := FileTokenStore.save ⟨name, reader⟩ plan token ⟨disk, [], []⟩
    (.saved ending.1, ending.2.disk)
  | load name => (.loaded (FileTokenStore.load ⟨name, reader⟩ disk), disk)

/-- Make calls, one after another. -/
def session (reader : FloatReader) : Disk String Char → List StoreCall → List StoreAnswer
  | _, [] => []
  | disk, call :: calls =>
    (call.perform reader disk).1 :: session reader (call.perform reader disk).2 calls

/-- What the stores hold: what a `load` of each gives. -/
abbrev Contents : Type := String → Except LoadError (Option PyVal)

/-- **Registers.** A `save` that returns sets the register of its store to what
the token becomes in JSON. A `save` that raises sets nothing, and a `load` gives
what is there. -/
inductive Explains : Contents → List StoreCall → List StoreAnswer → Prop where
  | nil {contents : Contents} : Explains contents [] []
  | saved {contents : Contents} {calls : List StoreCall} {answers : List StoreAnswer}
      {name : String} {plan : Plan} {token : PyVal} :
      Explains (Function.update contents name (.ok (some (PyJson.jsonize token)))) calls answers →
      Explains contents (.save name plan token :: calls) (.saved (.ok ()) :: answers)
  | raised {contents : Contents} {calls : List StoreCall} {answers : List StoreAnswer}
      {name : String} {plan : Plan} {token : PyVal} (e : SaveExn) :
      Explains contents calls answers →
      Explains contents (.save name plan token :: calls) (.saved (.error e) :: answers)
  | loaded {contents : Contents} {calls : List StoreCall} {answers : List StoreAnswer}
      {name : String} : Explains contents calls answers →
      Explains contents (.load name :: calls) (.loaded (contents name) :: answers)

/-- The registers agree with a disk on these names. -/
def Agrees (reader : FloatReader) (names : String → Prop) (contents : Contents)
    (disk : Disk String Char) : Prop :=
  ∀ name, names name → contents name = FileTokenStore.load ⟨name, reader⟩ disk

section Session

variable {reader : FloatReader} {names : String → Prop} {contents : Contents}
  {disk disk' : Disk String Char}

/-- What a `load` gives depends on what its name reads as. -/
theorem load_congr {name : String} (h : disk'.read name = disk.read name) :
    FileTokenStore.load ⟨name, reader⟩ disk' = FileTokenStore.load ⟨name, reader⟩ disk := by
  simp only [FileTokenStore.load, h]

theorem perform_save (dir : Directory) (name : String) (plan : Plan) (token : PyVal) :
    (StoreCall.save name plan token).perform reader dir.disk =
      (.saved (FileTokenStore.save ⟨name, reader⟩ plan token dir.world).1,
        (FileTokenStore.save ⟨name, reader⟩ plan token dir.world).2.disk) := rfl

/-- A `save` that returns, seen from the registers. -/
theorem agrees_of_saved (dir : Directory) (h : Agrees reader names contents dir.disk)
    {name : String} {plan : Plan} {token : PyVal}
    (hok : (FileTokenStore.save ⟨name, reader⟩ plan token dir.world).1 = .ok ()) :
    Agrees reader names
      (Function.update contents name (.ok (some (PyJson.jsonize token))))
      (FileTokenStore.save ⟨name, reader⟩ plan token dir.world).2.disk := by
  intro name' hname'
  by_cases he : name' = name
  · subst he
    rw [Function.update_self]
    exact (FileTokenStore.load_save ⟨name', reader⟩ plan dir token hok).symm
  · rw [Function.update_of_ne he, h name' hname']
    have hstores := FileTokenStore.stores_of_save ⟨name, reader⟩ plan dir token hok
    exact (load_congr (hstores.2.2 name' he)).symm

/-- A `save` that raises, seen from the registers: nothing happened. -/
theorem agrees_of_raised (dir : Directory) (h : Agrees reader names contents dir.disk)
    {name : String} {plan : Plan} {token : PyVal} {e : SaveExn}
    (htemp : ∀ name', names name' → ¬ IsTemp name name')
    (herror : (FileTokenStore.save ⟨name, reader⟩ plan token dir.world).1 = .error e) :
    Agrees reader names contents
      (FileTokenStore.save ⟨name, reader⟩ plan token dir.world).2.disk := by
  intro name' hname'
  rw [h name' hname']
  exact (load_congr (FileTokenStore.read_of_save_error ⟨name, reader⟩ plan token dir herror
    (htemp name' hname'))).symm

/-- **Every store is a register.** Whatever is saved and loaded, in any order, on
any stores of a directory none of which has a temporary name of another, and
whatever fails at any operation, unlinking included: every `load` gives the token
of the last `save` of that store that returned, or what was there at first. -/
theorem session_explains (reader : FloatReader) (names : String → Prop)
    (htemp : ∀ name name', names name → names name' → ¬ IsTemp name name')
    (calls : List StoreCall) (hcalls : ∀ call ∈ calls, names call.name) (dir : Directory) :
    Explains (fun name => FileTokenStore.load ⟨name, reader⟩ dir.disk) calls
      (session reader dir.disk calls) := by
  -- any registers that agree with the disk explain the answers
  suffices hall : ∀ (calls : List StoreCall), (∀ call ∈ calls, names call.name) →
      ∀ (dir : Directory) (contents : Contents), Agrees reader names contents dir.disk →
        Explains contents calls (session reader dir.disk calls) from
    hall calls hcalls dir _ fun _ _ => rfl
  intro calls
  induction calls with
  | nil => exact fun _ _ _ _ => .nil
  | cons call calls ih =>
    intro hcalls dir contents hagrees
    obtain ⟨hname, hrest⟩ := List.forall_mem_cons.mp hcalls
    rw [session]
    cases call with
    | load name =>
      simp only [StoreCall.perform, ← hagrees name hname]
      exact .loaded (ih hrest dir contents hagrees)
    | save name plan token =>
      have hsound := FileTokenStore.sound_of_save ⟨name, reader⟩ plan token dir
      have hnext := ih hrest hsound.directory
      cases hending : (FileTokenStore.save ⟨name, reader⟩ plan token dir.world).1 with
      | ok _ =>
        have hsaved := hnext _ (agrees_of_saved dir hagrees hending)
        rw [perform_save, hending]
        exact .saved hsaved
      | error e =>
        have hraised := hnext _ (agrees_of_raised dir hagrees (fun name' => htemp name name' hname)
          hending)
        rw [perform_save, hending]
        exact .raised e hraised

end Session

/-- Two stores of one directory, where a save of the second fails half-way and
leaves its temporary file behind. -/
theorem session_explains_of_leftover :
    let dir := (Start.holding "a.json" (.ofRefresh "rt0")).directory
    let full : SaveExn := .named "OSError"
    let good : Plan := ⟨fun _ => none, fun _ => 0, ["x"]⟩
    let bad : Plan :=
      ⟨fun point => if point = .fsync ∨ point = .unlink then some full else none, fun _ => 0, ["x"]⟩
    let token : PyVal := .dict [(.str [97], .atom .none)]
    let calls : List StoreCall :=
      [.save "b.json" good token, .save "b.json" bad (.dict []), .load "a.json", .load "b.json"]
    Explains (fun name => FileTokenStore.load ⟨name, .ofRepr⟩ dir.disk) calls
      (session .ofRepr dir.disk calls) := by
  intro dir full good bad token calls
  refine session_explains .ofRepr (fun name => name = "a.json" ∨ name = "b.json") ?_ calls ?_ dir
  · rintro name name' - (rfl | rfl) <;> exact not_isTemp (by decide)
  · intro call hcall
    simp only [calls, List.mem_cons, List.not_mem_nil, or_false] at hcall
    rcases hcall with rfl | rfl | rfl | rfl
    · exact Or.inr rfl
    · exact Or.inr rfl
    · exact Or.inl rfl
    · exact Or.inr rfl

end KgaGateway
