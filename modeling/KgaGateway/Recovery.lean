import KgaGateway.PowerLoss

/-!
# What is left after an outage

The store outlives the calls on it. A process that is killed leaves the disk as
it is; a machine that loses its power leaves what was durable. In both cases no
call is left, and the service starts again.

What is left after a power loss is again a disk to start from, and it holds a
token that the target held before (`exists_start_of_loss`). A restart of the
process leaves more than that: temporary files, and renames that are not
durable yet. But what happens before and after it is one run of the store, with
the calls of both processes numbered apart (`run_restart`). So what was proved
of one run holds across outages, too.
-/

namespace KgaGateway

/-! ## Outages -/

/-- What ends a process. -/
inductive Outage : Type where
  /-- it is killed, with every call -/
  | restart : Outage
  /-- the machine loses its power -/
  | powerLoss : Outage
  deriving DecidableEq

/-- What is found afterwards. -/
def Outage.after : Outage → Sys → Sys
  | restart, s => ⟨s.disk, fun _ => .idle, fun _ => .idle⟩
  | powerLoss, s => ⟨s.disk.powerLoss, fun _ => .idle, fun _ => .idle⟩

theorem Outage.after_congr (outage : Outage) {s s' : Sys} (h : s.disk = s'.disk) :
    outage.after s = outage.after s' := by
  cases outage <;> rw [after, after, h]

/-- A `save` moved this token to the target. -/
def MovedIn (token : ℕ → Token) (events : List StoreEvent) (t : Token) : Prop :=
  ∃ id, .save id .replace ∈ events ∧ t = token id

/-- This `save`, or one after it, moved this token to the target. -/
def MovedFrom (token : ℕ → Token) (events : List StoreEvent) (id : ℕ) (t : Token) : Prop :=
  ∃ before after id', events = before ++ .save id .replace :: after ∧
    (id' = id ∨ .save id' .replace ∈ after) ∧ t = token id'

/-! ## What is left to start from -/

variable {store : TokenStore} {start : Start store.name} {events : List StoreEvent} {s s' : Sys}

/-- The numbers in use, through one step. -/
theorem linked_of_step {e : StoreEvent} (h : s.disk.Linked) (hstep : store.step s e = some s') :
    s'.disk.Linked := by
  cases e with
  | save id op =>
    obtain ⟨⟨disk', pc'⟩, hsave, rfl⟩ := Option.map_eq_some_iff.mp hstep
    have hm := move_of_saveStep hsave
    generalize s.saves id = pc at hm
    cases hm with
    | mkstemp => exact h.create _
    | @replace tmp ino ino' hentry =>
      refine h.change fun ino'' hino => ?_
      obtain rfl := Option.some.inj hino
      exact h.entries tmp _ hentry
    | unlink => exact h.change nofun
    | _ => exact ⟨h.entries, h.durable, h.queue⟩
  | load id op =>
    obtain ⟨pc, -, rfl⟩ := Option.map_eq_some_iff.mp hstep
    exact h
  | commit =>
    cases hstep
    exact h.commit
  | writeback | commitDir =>
    cases hstep
    exact ⟨h.entries, h.durable, h.queue⟩

theorem linked_of_run : ∀ (events : List StoreEvent) {s : Sys},
    store.run start.sys events = some s → s.disk.Linked := by
  intro events
  induction events using List.reverseRecOn with
  | nil =>
    intro s hrun
    cases hrun
    refine ⟨start.used, fun file ino hentry => start.used file ino ?_, fun op hop => ?_⟩
    · exact start.durableEntries ▸ hentry
    · rw [Start.sys, start.queue] at hop
      exact absurd hop List.not_mem_nil
  | append_singleton events e ih =>
    intro s hrun
    obtain ⟨m, hm, hstep⟩ := run_append_singleton.mp hrun
    exact linked_of_step (ih hm) hstep

/-- The version that is left. -/
def leftVersion (r : Register Version) (disk : Disk String Char) : Option Version :=
  if disk.durableDir then r.recovered else none

/-- After any run and a power loss the disk is at rest, with a version at the
target or none. -/
theorem Reached.exists_start {r : Register Version} (hr : Reached store start events r s)
    (hlinked : s.disk.Linked) :
    ∃ next : Start store.name, next.sys = Outage.powerLoss.after s ∧ next.stored = leftVersion r s.disk := by
  have hleft : ∀ p ∈ leftVersion r s.disk, s.disk.durableDir = true ∧ r.recovered = some p := by
    intro p hp
    rw [leftVersion] at hp
    split at hp
    · exact ⟨‹_›, hp⟩
    · cases hp
  have hentry : s.disk.powerLoss.entries store.name = (leftVersion r s.disk).map Prod.fst := by
    cases hversion : leftVersion r s.disk with
    | none =>
      refine hr.inv.disk.powerLoss_none fun hdir => ?_
      rwa [leftVersion, if_pos hdir] at hversion
    | some p =>
      obtain ⟨hdir, hrecovered⟩ := hleft p hversion
      exact (hr.inv.disk.powerLoss hdir hrecovered).2.1
  have hsurvives : ∀ file ino, s.disk.powerLoss.entries file = some ino →
      s.disk.durableDir = true ∧ s.disk.durableEntries file = some ino := by
    intro file ino hfile
    cases hdir : s.disk.durableDir with
    | false =>
      rw [Disk.entries_powerLoss_of_not_durable hdir] at hfile
      cases hfile
    | true => exact ⟨rfl, Disk.entries_powerLoss_of_durable hdir ▸ hfile⟩
  refine ⟨{
    disk := s.disk.powerLoss
    stored := leftVersion r s.disk
    entry := hentry
    content := fun p hp => ?_
    isDir := fun hsome => ?_
    used := fun file ino hfile => hlinked.durable file ino (hsurvives file ino hfile).2
    noLink := fun hdir => Disk.entries_powerLoss_of_not_durable hdir
    durableDir := rfl
    durableEntries := rfl
    queue := rfl }, rfl, rfl⟩
  · obtain ⟨hdir, hrecovered⟩ := hleft p hp
    have hdata := (hr.inv.disk.powerLoss hdir hrecovered).2.2
    exact ⟨hdata, hdata, rfl⟩
  · obtain ⟨p, hp⟩ := Option.isSome_iff_exists.mp hsome
    exact (hleft p hp).1

/-- What was stored at first is never lost without something in its place. -/
theorem Reached.stored_of_left_none {r : Register Version} (hr : Reached store start events r s)
    (hnone : leftVersion r s.disk = none) : start.stored = none := by
  by_contra hstored
  obtain ⟨-, hdir⟩ := hr.durableDir (Option.isSome_iff_ne_none.mpr hstored)
  rw [leftVersion, if_pos hdir, Register.recovered_eq_none] at hnone
  exact hstored (Option.toList_eq_nil_iff.mp (List.prefix_nil.mp (hnone ▸ hr.settled)))

theorem Token.ext {token token' : Token} (h : token.members = token'.members) : token = token' := by
  cases token
  cases token'
  cases h
  rfl

/-- What a `load` finds at the start. -/
theorem Start.loadAlone_eq (start : Start store.name) :
    store.loadAlone start.disk = .ok (start.token.map fun token => .obj token.members) := by
  have hentry := start.entry
  rw [Start.token]
  cases hstored : start.stored with
  | none =>
    rw [hstored] at hentry
    exact loadAlone_of_absent hentry
  | some p =>
    rw [hstored] at hentry
    have hdir := start.isDir (hstored ▸ rfl)
    exact loadAlone_of_entry hdir hentry (start.content p hstored).1

/-- **After a power loss.** What is left is a disk to start from. It holds the
token of the start, or one moved to the target since; and if a `save` that
returned had settled, its token or a later one. -/
theorem exists_start_of_loss (hrun : store.run start.sys events = some s) :
    ∃ next : Start store.name, next.sys = Outage.powerLoss.after s ∧
      (next.token = start.token ∨ ∃ t, MovedIn store.token events t ∧ next.token = some t) ∧
      ∀ id ino, s.saves id = .returned ino → Settled store s.disk ino →
        ∃ t, MovedFrom store.token events id t ∧ next.token = some t := by
  obtain ⟨r, hr⟩ := reached_of_run events hrun
  obtain ⟨next, hnext, hstored⟩ := hr.exists_start (linked_of_run events hrun)
  refine ⟨next, hnext, ?_, fun id ino hret hsettled => ?_⟩
  · cases hleft : leftVersion r s.disk with
    | none =>
      left
      rw [Start.token, hstored, hleft, Start.token, hr.stored_of_left_none hleft]
    | some p =>
      rw [Start.token, hstored, hleft, Option.map_some]
      have hversion : p ∈ r.versions := by
        rw [leftVersion] at hleft
        split at hleft
        · exact Register.mem_versions_of_recovered hleft
        · cases hleft
      have hmem : p.2 ∈ store.history start events := hr.history ▸ List.mem_map_of_mem hversion
      rcases mem_history.mp hmem with hfirst | hmoved
      · exact Or.inl hfirst.symm
      · exact Or.inr ⟨p.2, hmoved, rfl⟩
  · obtain ⟨before, after, id', hsplit, hid', hload⟩ := survives_of_settled hrun hret hsettled
    refine ⟨_, ⟨before, after, id', hsplit, hid', rfl⟩, ?_⟩
    have hdisk : next.disk = s.disk.powerLoss := congrArg Sys.disk hnext
    rw [← hdisk, next.loadAlone_eq] at hload
    cases htoken : next.token with
    | none =>
      rw [htoken] at hload
      cases hload
    | some token =>
      rw [htoken] at hload
      refine congrArg some (Token.ext ?_)
      simpa using hload

/-! ## What is left after a restart -/

/-- An event under another number. -/
def StoreEvent.renumber (f : ℕ → ℕ) : StoreEvent → StoreEvent
  | .save id op => .save (f id) op
  | .load id op => .load (f id) op
  | e => e

/-- Every call of one state is in the other, under its new number. -/
structure Renumbered (f : ℕ → ℕ) (s s' : Sys) : Prop where
  disk : s'.disk = s.disk
  saves : ∀ id, s'.saves (f id) = s.saves id
  loads : ∀ id, s'.loads (f id) = s.loads id

/-- The calls that have no new number are the same. -/
structure SameAside (f : ℕ → ℕ) (s s' : Sys) : Prop where
  saves : ∀ n, (∀ id, n ≠ f id) → s'.saves n = s.saves n
  loads : ∀ n, (∀ id, n ≠ f id) → s'.loads n = s.loads n

section Renumber

variable {name : String} {reader : FloatReader} {token token' : ℕ → Token} {f : ℕ → ℕ}

theorem update_renumbered {X : Type} (hf : Function.Injective f) {g g' : ℕ → X}
    (h : ∀ id, g' (f id) = g id) (id : ℕ) (x : X) (id' : ℕ) :
    Function.update g' (f id) x (f id') = Function.update g id x id' := by
  rcases eq_or_ne id' id with rfl | hne
  · rw [Function.update_self, Function.update_self]
  · rw [Function.update_of_ne (hf.ne hne), Function.update_of_ne hne, h]

theorem Renumbered.step {t : Sys} {e : StoreEvent} (hf : Function.Injective f)
    (htoken : ∀ id, token' (f id) = token id) (h : Renumbered f s t)
    (hstep : (TokenStore.mk name reader token).step s e = some s') :
    ∃ t', (TokenStore.mk name reader token').step t (e.renumber f) = some t' ∧
      Renumbered f s' t' ∧ SameAside f t t' := by
  cases e with
  | save id op =>
    obtain ⟨⟨disk', pc'⟩, hsave, rfl⟩ := Option.map_eq_some_iff.mp hstep
    have hsave' : (TokenStore.mk name reader token').saveStep (token' (f id)) t.disk
        (t.saves (f id)) op = some (disk', pc') := by
      rw [htoken, h.disk, h.saves]
      exact hsave
    refine ⟨_, congrArg (Option.map _) hsave', ⟨rfl, ?_, h.loads⟩, ⟨fun n hn => ?_, fun _ _ => rfl⟩⟩
    · exact update_renumbered hf h.saves id pc'
    · exact Function.update_of_ne (hn id) ..
  | load id op =>
    obtain ⟨pc', hload, rfl⟩ := Option.map_eq_some_iff.mp hstep
    have hload' : (TokenStore.mk name reader token').loadStep t.disk (t.loads (f id)) op =
        some pc' := by
      rw [h.disk, h.loads]
      exact hload
    refine ⟨_, congrArg (Option.map _) hload', ⟨h.disk, h.saves, ?_⟩, ⟨fun _ _ => rfl, fun n hn => ?_⟩⟩
    · exact update_renumbered hf h.loads id pc'
    · exact Function.update_of_ne (hn id) ..
  | writeback | commit | commitDir =>
    cases hstep
    exact ⟨_, rfl, ⟨by rw [h.disk], h.saves, h.loads⟩, ⟨fun _ _ => rfl, fun _ _ => rfl⟩⟩

/-- A run, under other numbers. -/
theorem Renumbered.run (hf : Function.Injective f) (htoken : ∀ id, token' (f id) = token id) :
    ∀ (events : List StoreEvent) {s s' t : Sys}, Renumbered f s t →
      (TokenStore.mk name reader token).run s events = some s' →
      ∃ t', (TokenStore.mk name reader token').run t (events.map (.renumber f)) = some t' ∧
        Renumbered f s' t' ∧ SameAside f t t' := by
  intro events
  induction events with
  | nil =>
    intro s s' t h hrun
    cases hrun
    exact ⟨t, rfl, h, ⟨fun _ _ => rfl, fun _ _ => rfl⟩⟩
  | cons e events ih =>
    intro s s' t h hrun
    obtain ⟨m, hstep, hrun⟩ := Option.bind_eq_some_iff.mp hrun
    obtain ⟨n, hstep', hn, hsame⟩ := h.step hf htoken hstep
    obtain ⟨t', hrun', ht', hsame'⟩ := ih hn hrun
    refine ⟨t', Option.bind_eq_some_iff.mpr ⟨n, hstep', hrun'⟩, ht', ?_, ?_⟩
    · exact fun i hi => (hsame'.saves i hi).trans (hsame.saves i hi)
    · exact fun i hi => (hsame'.loads i hi).trans (hsame.loads i hi)

/-- The tokens of two processes: the calls of the first have even numbers. -/
def both (token token' : ℕ → Token) (n : ℕ) : Token :=
  if n % 2 = 0 then token (n / 2) else token' (n / 2)

/-- What happens in two processes, one after the other. -/
def joined (events events' : List StoreEvent) : List StoreEvent :=
  events.map (.renumber (2 * ·)) ++ events'.map (.renumber (2 * · + 1))

theorem both_even (token token' : ℕ → Token) (id : ℕ) : both token token' (2 * id) = token id := by
  rw [both, if_pos (by omega)]
  congr 1
  omega

theorem both_odd (token token' : ℕ → Token) (id : ℕ) :
    both token token' (2 * id + 1) = token' id := by
  rw [both, if_neg (by omega)]
  congr 1
  omega

/-- Two runs with a restart in between, as one run. -/
structure Joined (first second t : Sys) : Prop where
  disk : t.disk = second.disk
  before : ∀ id, t.saves (2 * id) = first.saves id
  saves : ∀ id, t.saves (2 * id + 1) = second.saves id
  loads : ∀ id, t.loads (2 * id + 1) = second.loads id

/-- **A restart is nothing new.** What happens before and after it is a run. -/
theorem run_restart {start : Start name} {events events' : List StoreEvent} {s s' : Sys}
    (h : (TokenStore.mk name reader token).run start.sys events = some s)
    (h' : (TokenStore.mk name reader token').run (Outage.restart.after s) events' = some s') :
    ∃ t, (TokenStore.mk name reader (both token token')).run start.sys (joined events events') =
      some t ∧ Joined s s' t := by
  have heven : Function.Injective (2 * · : ℕ → ℕ) := fun n m h => by
    dsimp only at h
    omega
  have hodd : Function.Injective (2 * · + 1 : ℕ → ℕ) := fun n m h => by
    dsimp only at h
    omega
  have hstart : Renumbered (2 * ·) start.sys start.sys := ⟨rfl, fun _ => rfl, fun _ => rfl⟩
  obtain ⟨m, hm, hfirst, haside⟩ :=
    hstart.run heven (both_even token token') events h
  -- the second process finds its numbers free
  have hrestart : Renumbered (2 * · + 1) (Outage.restart.after s) m := by
    refine ⟨hfirst.disk, fun id => ?_, fun id => ?_⟩
    · exact haside.saves (2 * id + 1) fun id' => by omega
    · exact haside.loads (2 * id + 1) fun id' => by omega
  obtain ⟨t, ht, hsecond, haside'⟩ := hrestart.run hodd (both_odd token token') events' h'
  refine ⟨t, ?_, hsecond.disk, fun id => ?_, hsecond.saves, hsecond.loads⟩
  · rw [joined, TokenStore.run, List.foldlM_append]
    exact Option.bind_eq_some_iff.mpr ⟨m, hm, ht⟩
  · exact (haside'.saves (2 * id) fun id' => by omega).trans (hfirst.saves id)

theorem renumber_eq_save {e : StoreEvent} {n : ℕ} {op : SaveOp} :
    e.renumber f = .save n op ↔ ∃ id, e = .save id op ∧ n = f id := by
  cases e <;> simp [StoreEvent.renumber, eq_comm, and_comm]

theorem save_mem_renumber {events : List StoreEvent} {n : ℕ} :
    .save n .replace ∈ events.map (StoreEvent.renumber f) ↔
      ∃ id, n = f id ∧ .save id .replace ∈ events := by
  rw [List.mem_map]
  constructor
  · rintro ⟨e, he, heq⟩
    obtain ⟨id, rfl, rfl⟩ := renumber_eq_save.mp heq
    exact ⟨id, rfl, he⟩
  · rintro ⟨id, rfl, he⟩
    exact ⟨_, he, rfl⟩

theorem save_mem_joined {events events' : List StoreEvent} {n : ℕ} :
    .save n .replace ∈ joined events events' ↔
      (∃ id, n = 2 * id ∧ .save id .replace ∈ events) ∨
        ∃ id, n = 2 * id + 1 ∧ .save id .replace ∈ events' := by
  rw [joined, List.mem_append, save_mem_renumber, save_mem_renumber]

/-- What was moved in one of the processes. -/
theorem movedIn_joined {events events' : List StoreEvent} {t : Token}
    (h : MovedIn (both token token') (joined events events') t) :
    MovedIn token events t ∨ MovedIn token' events' t := by
  obtain ⟨n, hn, rfl⟩ := h
  rcases save_mem_joined.mp hn with ⟨id, rfl, hid⟩ | ⟨id, rfl, hid⟩
  · exact Or.inl ⟨id, hid, both_even token token' id⟩
  · exact Or.inr ⟨id, hid, both_odd token token' id⟩

theorem split_of_renumber {events before after : List StoreEvent} {n : ℕ}
    (h : events.map (.renumber f) = before ++ .save n .replace :: after) :
    ∃ first rest id, events = first ++ .save id .replace :: rest ∧ n = f id ∧
      after = rest.map (.renumber f) := by
  obtain ⟨first, tail, rfl, -, htail⟩ := List.map_eq_append_iff.mp h
  obtain ⟨e, rest, rfl, he, rfl⟩ := List.map_eq_cons_iff.mp htail
  obtain ⟨id, rfl, hn⟩ := renumber_eq_save.mp he
  exact ⟨first, rest, id, rfl, hn, rfl⟩

/-- A `save` of the first process, and what was moved after it. -/
theorem movedFrom_joined_first {events events' : List StoreEvent} {id : ℕ} {t : Token}
    (h : MovedFrom (both token token') (joined events events') (2 * id) t) :
    MovedFrom token events id t ∨ MovedIn token' events' t := by
  obtain ⟨before, after, n, hsplit, hn, rfl⟩ := h
  rcases List.append_eq_append_iff.mp hsplit with ⟨more, -, hmore⟩ | ⟨more, hmore, hafter⟩
  · obtain ⟨-, -, id', -, hid', -⟩ := split_of_renumber hmore
    omega
  · cases more with
    | nil =>
      have hnil : events'.map (.renumber (2 * · + 1)) =
          [] ++ .save (2 * id) .replace :: after := hafter.symm
      obtain ⟨-, -, id', -, hid', -⟩ := split_of_renumber hnil
      omega
    | cons e more =>
      obtain ⟨rfl, rfl⟩ := List.cons.inj hafter
      obtain ⟨first, rest, id', rfl, hid', rfl⟩ := split_of_renumber hmore
      obtain rfl : id = id' := by omega
      rcases hn with rfl | hn
      · exact Or.inl ⟨first, rest, id, rfl, Or.inl rfl, both_even token token' id⟩
      · rcases save_mem_joined.mp hn with ⟨id', rfl, hmem⟩ | ⟨id', rfl, hmem⟩
        · exact Or.inl ⟨first, rest, id', rfl, Or.inr hmem, both_even token token' id'⟩
        · exact Or.inr ⟨id', hmem, both_odd token token' id'⟩

/-- A `save` of the second process. -/
theorem movedFrom_joined_second {events events' : List StoreEvent} {id : ℕ} {t : Token}
    (h : MovedFrom (both token token') (joined events events') (2 * id + 1) t) :
    MovedFrom token' events' id t := by
  obtain ⟨before, after, n, hsplit, hn, rfl⟩ := h
  have hfirst : ∀ {before after : List StoreEvent},
      events.map (.renumber (2 * ·)) ≠ before ++ .save (2 * id + 1) .replace :: after := by
    intro before after heq
    obtain ⟨-, -, id', -, hid', -⟩ := split_of_renumber heq
    omega
  have hsecond : ∃ before, events'.map (.renumber (2 * · + 1)) =
      before ++ .save (2 * id + 1) .replace :: after := by
    rcases List.append_eq_append_iff.mp hsplit with ⟨more, -, hmore⟩ | ⟨more, hmore, hafter⟩
    · exact ⟨more, hmore⟩
    · cases more with
      | nil => exact ⟨[], hafter.symm⟩
      | cons e more =>
        obtain ⟨rfl, rfl⟩ := List.cons.inj hafter
        exact absurd hmore hfirst
  obtain ⟨before', hsecond⟩ := hsecond
  obtain ⟨first, rest, id', rfl, hid', rfl⟩ := split_of_renumber hsecond
  obtain rfl : id = id' := by omega
  rcases hn with rfl | hn
  · exact ⟨first, rest, id, rfl, Or.inl rfl, both_odd token token' id⟩
  · obtain ⟨id', rfl, hmem⟩ := save_mem_renumber.mp hn
    exact ⟨first, rest, id', rfl, Or.inr hmem, both_odd token token' id'⟩

end Renumber

end KgaGateway
