import KgaGateway.Linearizability

/-!
# Power loss

A power loss leaves what had become durable. The directory and the files settle
independently, so two things could go wrong: an entry that points to a file not
yet written, and an entry that is still the old one.

The first cannot happen. The file is synced before it is renamed, so whatever
entry survives, the file behind it is whole (`powerLoss_consistent`).

The second can. `save` syncs the file and not the directory, so when it returns
its rename may still be waiting, and the parent directories it created may be
too. Then the old token comes back, or none (`survives_fails_on_rotation`). A
`save` that returned survives if and only if its rename had become durable
(`survives_iff`).
-/

namespace KgaGateway

variable {store : TokenStore} {start : Start store.name} {events : List StoreEvent}
  {r : Register Version} {s : Sys}

/-! ## A load on its own -/

/-- A `load` that no other call interrupts ends with `loadAlone`. -/
theorem load_completes {id : ℕ} (hidle : s.loads id = .idle) :
    ∃ ops : List LoadOp, store.run s (ops.map (.load id)) =
      some { s with loads := Function.update s.loads id (.done (store.loadAlone s.disk)) } := by
  cases hentry : (if s.disk.isDir then s.disk.entries store.name else none) with
  | none =>
    refine ⟨[.open], ?_⟩
    simp [TokenStore.run, TokenStore.step, TokenStore.loadStep, TokenStore.loadAlone, hidle, hentry]
  | some ino =>
    refine ⟨[.open, .read (s.disk.data ino).length, .eof], ?_⟩
    simp [TokenStore.run, TokenStore.step, TokenStore.loadStep, TokenStore.loadAlone, hidle, hentry]

/-- What it reads, when the target is linked to a whole token. -/
theorem loadAlone_of_entry {disk : Disk String Char} {ino : ℕ} {token : Token}
    (hdir : disk.isDir = true) (hentry : disk.entries store.name = some ino)
    (hdata : disk.data ino = serialise token) :
    store.loadAlone disk = .ok (some (.obj token.members)) := by
  rw [TokenStore.loadAlone, if_pos hdir, hentry]
  dsimp only
  rw [hdata, parseContent_serialise]

/-! ## What is left -/

/-- After a power loss the target is linked to the version that is recovered,
whole. -/
theorem Represents.powerLoss {disk : Disk String Char} (h : Represents store r disk)
    {p : Version} (hdir : disk.durableDir = true) (hrecovered : r.recovered = some p) :
    disk.powerLoss.isDir = true ∧ disk.powerLoss.entries store.name = some p.1 ∧
      disk.powerLoss.data p.1 = serialise p.2 := by
  refine ⟨hdir, ?_, (h.held p (Register.mem_versions_of_recovered hrecovered)).2.durable⟩
  rw [Disk.entries_powerLoss_of_durable hdir, h.durable, hrecovered, Option.map_some]

/-- It is absent if nothing is recovered, or if the directory itself is lost. -/
theorem Represents.powerLoss_none {disk : Disk String Char} (h : Represents store r disk)
    (hnone : disk.durableDir = true → r.recovered = none) :
    disk.powerLoss.entries store.name = none := by
  cases hdir : disk.durableDir with
  | false => exact Disk.entries_powerLoss_of_not_durable hdir _
  | true =>
    rw [Disk.entries_powerLoss_of_durable hdir, h.durable, hnone hdir, Option.map_none]

theorem loadAlone_of_absent {disk : Disk String Char} (h : disk.entries store.name = none) :
    store.loadAlone disk = .ok none := by
  rw [TokenStore.loadAlone, h, ite_self]

/-- **Power-loss consistency.** After any run and a power loss, the target is
absent, and was so at the start, or it is linked to a file that holds one whole
token: the one stored at first, or one whose rename had been issued. A `load`
then returns `None` or that token, and never ends with a JSON error. -/
theorem powerLoss_consistent (store : TokenStore) (start : Start store.name)
    (events : List StoreEvent) (s : Sys) (hrun : store.run start.sys events = some s) :
    (s.disk.powerLoss.entries store.name = none ∧ start.disk.entries store.name = none ∧
      store.loadAlone s.disk.powerLoss = .ok none) ∨
    ∃ ino token, s.disk.powerLoss.entries store.name = some ino ∧
      s.disk.powerLoss.data ino = serialise token ∧
      (start.token = some token ∨ ∃ id, .save id .replace ∈ events ∧ token = store.token id) ∧
      store.loadAlone s.disk.powerLoss = .ok (some (.obj token.members)) := by
  obtain ⟨r, hr⟩ := reached_of_run events hrun
  by_cases hleft : s.disk.durableDir = true ∧ r.recovered.isSome = true
  · right
    obtain ⟨hdir, hsome⟩ := hleft
    obtain ⟨⟨ino, token⟩, hrecovered⟩ := Option.isSome_iff_exists.mp hsome
    obtain ⟨hisDir, hentry, hdata⟩ := hr.inv.disk.powerLoss hdir hrecovered
    refine ⟨ino, token, hentry, hdata, ?_, loadAlone_of_entry hisDir hentry hdata⟩
    have hmem : token ∈ store.history start events := by
      rw [← hr.history]
      exact List.mem_map_of_mem (Register.mem_versions_of_recovered hrecovered)
    exact mem_history.mp hmem
  · left
    have hnone : s.disk.durableDir = true → r.recovered = none := fun hdir =>
      Option.not_isSome_iff_eq_none.mp fun hsome => hleft ⟨hdir, hsome⟩
    have habsent := hr.inv.disk.powerLoss_none hnone
    refine ⟨habsent, ?_, loadAlone_of_absent habsent⟩
    -- what was stored at first is in a durable directory, and has settled
    have hstored : start.stored = none := by
      by_contra hstored
      have hrecovered := hnone (hr.durableDir (Option.isSome_iff_ne_none.mpr hstored)).2
      have hnil := List.prefix_nil.mp (Register.recovered_eq_none.mp hrecovered ▸ hr.settled)
      exact hstored (Option.toList_eq_nil_iff.mp hnil)
    rw [start.entry, hstored, Option.map_none]

/-- The power is lost right after the rename of the first `save`. -/
theorem powerLoss_consistent_of_first_save :
    ∃ s, (TokenStore.ofToken "t" (.ofRefresh "new")).run (Start.absent "t").sys
        (saveAlone 0 "k" 100) = some s ∧
      ((TokenStore.ofToken "t" (.ofRefresh "new")).loadAlone s.disk.powerLoss = .ok none ∨
        (TokenStore.ofToken "t" (.ofRefresh "new")).loadAlone s.disk.powerLoss =
          .ok (some (.obj (Token.ofRefresh "new").members))) := by
  let store : TokenStore := .ofToken "t" (.ofRefresh "new")
  have hsome : (store.run (Start.absent "t").sys (saveAlone 0 "k" 100)).isSome = true := by
    decide +kernel
  obtain ⟨s, hrun⟩ := Option.isSome_iff_exists.mp hsome
  refine ⟨s, hrun, ?_⟩
  rcases powerLoss_consistent store (Start.absent "t") _ s hrun with
    ⟨-, -, hload⟩ | ⟨ino, token, -, -, hstart | ⟨id, -, rfl⟩, hload⟩
  · exact Or.inl hload
  · cases hstart
  · exact Or.inr hload

/-! ## What a save that returned can count on -/

/-- A `load` after a power loss returns the token of the `save`, or that of one
whose rename came later. -/
def Survives (store : TokenStore) (events : List StoreEvent) (s : Sys) (id : ℕ) : Prop :=
  ∃ before after id', events = before ++ .save id .replace :: after ∧
    (id' = id ∨ .save id' .replace ∈ after) ∧
    store.loadAlone s.disk.powerLoss = .ok (some (.obj (store.token id').members))

/-- The directory is durable, and so is the rename of this file to the target. -/
def Settled (store : TokenStore) (disk : Disk String Char) (ino : ℕ) : Prop :=
  disk.durableDir = true ∧ ∀ op ∈ disk.queue, movedTo store.name op ≠ some ino

/-- Every token is a new one. -/
structure Rotates (store : TokenStore) (start : Start store.name) : Prop where
  saved : ∀ id id', (store.token id).members = (store.token id').members → id = id'
  stored : ∀ token, start.token = some token → ∀ id, token.members ≠ (store.token id).members

/-- The pending versions are those whose rename is queued. -/
theorem Inv.mem_pending_iff (h : Inv store r s) {p : Version} (hp : p ∈ r.versions) :
    p ∈ r.pending ↔ ∃ op ∈ s.disk.queue, movedTo store.name op = some p.1 := by
  have hqueued := h.disk.queued
  rw [← List.mem_filterMap, hqueued]
  refine ⟨List.mem_map_of_mem, fun hmem => ?_⟩
  obtain ⟨p', hp', heq⟩ := List.mem_map.mp hmem
  have hversion : p' ∈ r.versions := List.mem_append_right _ hp'
  rwa [← List.inj_on_of_nodup_map h.distinct hversion hp heq]

/-- Nothing happens to a `save` that returned. -/
theorem returned_of_step {s' : Sys} {e : StoreEvent} {id ino : ℕ}
    (hret : s.saves id = .returned ino) (hstep : store.step s e = some s') :
    s'.saves id = .returned ino ∧ e ≠ .save id .replace := by
  cases e with
  | save id' op =>
    obtain ⟨⟨disk', pc'⟩, hsave, rfl⟩ := Option.map_eq_some_iff.mp hstep
    rcases eq_or_ne id id' with rfl | hne
    · have hm := move_of_saveStep hsave
      rw [hret] at hm
      cases hm with
      | fail hfail => cases hfail
      | kill hended => cases hended
    · refine ⟨(Function.update_of_ne hne ..).trans hret, fun he => hne ?_⟩
      cases he
      rfl
  | load id' op =>
    obtain ⟨pc, -, rfl⟩ := Option.map_eq_some_iff.mp hstep
    exact ⟨hret, nofun⟩
  | writeback | commit | commitDir =>
    cases hstep
    exact ⟨hret, nofun⟩

theorem returned_of_run {id ino : ℕ} : ∀ (events : List StoreEvent) {s s' : Sys},
    s.saves id = .returned ino → store.run s events = some s' →
      s'.saves id = .returned ino ∧ .save id .replace ∉ events := by
  intro events
  induction events with
  | nil =>
    intro s s' hret hrun
    cases hrun
    exact ⟨hret, List.not_mem_nil⟩
  | cons e events ih =>
    intro s s' hret hrun
    obtain ⟨m, hstep, hrun⟩ := Option.bind_eq_some_iff.mp hrun
    obtain ⟨hm, hne⟩ := returned_of_step hret hstep
    obtain ⟨hs', hnot⟩ := ih hm hrun
    exact ⟨hs', List.not_mem_cons_of_ne_of_not_mem hne.symm hnot⟩

/-- The state after the rename of a `save`: it returned, and pushed a version. -/
theorem exists_returned_of_replace {before after : List StoreEvent} {id : ℕ}
    (hrun : store.run start.sys (before ++ .save id .replace :: after) = some s) :
    ∃ (r : Register Version) (m : Sys) (ino : ℕ),
      r.versions.map Prod.snd = store.history start before ∧
      Inv store (r.push (ino, store.token id)) m ∧ m.saves id = .returned ino ∧
      store.run m after = some s := by
  rw [TokenStore.run, List.foldlM_append] at hrun
  obtain ⟨m, hbefore, hrun⟩ := Option.bind_eq_some_iff.mp hrun
  obtain ⟨m', hstep, hafter⟩ := Option.bind_eq_some_iff.mp hrun
  obtain ⟨r, hr⟩ := reached_of_run before hbefore
  obtain ⟨r', hr', hadvance⟩ := hr.inv.step hstep
  cases hadvance with
  | push hret => exact ⟨r, m', _, hr.history, hr', hret, hafter⟩
  | stay hne => exact absurd rfl (hne id)

/-- The version of a `save` that returned: the tokens moved before it are those
before, the tokens moved after it those after. -/
theorem version_of_returned {before after : List StoreEvent} {id ino : ℕ}
    (hrun : store.run start.sys (before ++ .save id .replace :: after) = some s)
    (hret : s.saves id = .returned ino) :
    ∃ r earlier later, Inv store r s ∧ r.versions = earlier ++ (ino, store.token id) :: later ∧
      earlier.map Prod.snd = store.history start before ∧
      later.map Prod.snd = after.filterMap store.moved := by
  obtain ⟨r, m, ino', hhistory, hinv, hret', hafter⟩ := exists_returned_of_replace hrun
  have hino := (returned_of_run after hret' hafter).1
  obtain rfl : ino' = ino := SavePc.returned.inj (hino.symm.trans hret)
  obtain ⟨r', hr', -, later, hversions, hlater⟩ := hinv.run after hafter
  refine ⟨r', r.versions, later, hr', ?_, hhistory, hlater⟩
  rw [hversions, Register.versions_push, List.append_assoc, List.singleton_append]

/-- A `save` renames once. -/
theorem replace_once {before after : List StoreEvent} {id : ℕ}
    (hrun : store.run start.sys (before ++ .save id .replace :: after) = some s) :
    .save id .replace ∉ after := by
  obtain ⟨-, m, ino, -, -, hret, hafter⟩ := exists_returned_of_replace hrun
  exact (returned_of_run after hret hafter).2

/-- A version that is pending is not settled, and the other way around. -/
theorem settled_iff_not_pending (h : Inv store r s) {p : Version} (hp : p ∈ r.versions) :
    Settled store s.disk p.1 ↔ s.disk.durableDir = true ∧ p ∉ r.pending := by
  rw [Settled, h.mem_pending_iff hp]
  simp

/-- What is settled is found again, or a later version is. -/
theorem survives_of_settled {id ino : ℕ} (hrun : store.run start.sys events = some s)
    (hret : s.saves id = .returned ino) (hsettled : Settled store s.disk ino) :
    Survives store events s id := by
  obtain ⟨before, after, rfl⟩ := List.append_of_mem (replace_mem_of_returned events hrun hret)
  obtain ⟨r, earlier, later, hinv, hversions, -, hlater⟩ := version_of_returned hrun hret
  have hmem : (ino, store.token id) ∈ r.versions := by
    rw [hversions]
    exact List.mem_append_right _ (List.mem_cons_self ..)
  obtain ⟨hdir, hpending⟩ := (settled_iff_not_pending hinv hmem).mp hsettled
  obtain ⟨p, hp, hrecovered⟩ := Register.recovered_mem_of_not_pending hversions hpending
  obtain ⟨hisDir, hentry, hdata⟩ := hinv.disk.powerLoss hdir hrecovered
  have hload := loadAlone_of_entry hisDir hentry hdata
  rcases List.mem_cons.mp hp with rfl | hp
  · exact ⟨before, after, id, rfl, Or.inl rfl, hload⟩
  · have hmoved : p.2 ∈ after.filterMap store.moved := hlater ▸ List.mem_map_of_mem hp
    obtain ⟨id', hid', htoken⟩ := mem_moved.mp hmoved
    exact ⟨before, after, id', rfl, Or.inr hid', htoken ▸ hload⟩

/-- What comes back was recovered, from a directory that is durable. -/
theorem recovered_of_loadAlone {members : List (String × Json)} (h : Inv store r s)
    (hload : store.loadAlone s.disk.powerLoss = .ok (some (.obj members))) :
    s.disk.durableDir = true ∧ ∃ p, r.recovered = some p ∧ p.2.members = members := by
  have hleft : ¬ (s.disk.durableDir = true → r.recovered = none) := by
    intro hnone
    rw [loadAlone_of_absent (h.disk.powerLoss_none hnone)] at hload
    cases hload
  obtain ⟨hdir, hsome⟩ := Classical.not_imp.mp hleft
  obtain ⟨p, hrecovered⟩ := Option.ne_none_iff_exists'.mp hsome
  obtain ⟨hisDir, hentry, hdata⟩ := h.disk.powerLoss hdir hrecovered
  rw [loadAlone_of_entry hisDir hentry hdata] at hload
  exact ⟨hdir, p, hrecovered, by simpa using hload⟩

/-- While the rename is pending, what comes back was moved before it. A token
that is a new one every time is then not that of the `save` or a later one. -/
theorem settled_of_survives {id ino : ℕ} (hrun : store.run start.sys events = some s)
    (hret : s.saves id = .returned ino) (hrotates : Rotates store start)
    (hsurvives : Survives store events s id) : Settled store s.disk ino := by
  obtain ⟨before, after, id', rfl, hid', hload⟩ := hsurvives
  obtain ⟨r, earlier, later, hinv, hversions, hearlier, -⟩ := version_of_returned hrun hret
  obtain ⟨hdir, p, hrecovered, hmembers⟩ := recovered_of_loadAlone hinv hload
  have hmem : (ino, store.token id) ∈ r.versions := by
    rw [hversions]
    exact List.mem_append_right _ (List.mem_cons_self ..)
  refine (settled_iff_not_pending hinv hmem).mpr ⟨hdir, fun hpending => ?_⟩
  have hp : p ∈ earlier :=
    Register.recovered_mem_of_pending hversions (.of_map _ hinv.distinct) hpending hrecovered
  have hbefore : p.2 ∈ store.history start before := hearlier ▸ List.mem_map_of_mem hp
  rcases mem_history.mp hbefore with hstored | ⟨id'', hid'', htoken⟩
  · exact hrotates.stored p.2 hstored id' hmembers
  · -- the same `save` would have renamed before and after
    rw [htoken] at hmembers
    obtain rfl := hrotates.saved id'' id' hmembers
    obtain ⟨first, between, rfl⟩ := List.append_of_mem hid''
    rw [List.append_assoc, List.cons_append] at hrun
    refine replace_once hrun (List.mem_append_right _ ?_)
    rcases hid' with rfl | hid'
    · exact List.mem_cons_self ..
    · exact List.mem_cons_of_mem _ hid'

/-- **Which saves survive.** A `save` that returned survives a power loss if
the directory and its rename had become durable by then; where every token is a
new one, it survives only then. -/
theorem survives_iff (store : TokenStore) (start : Start store.name) (events : List StoreEvent)
    (s : Sys) (hrun : store.run start.sys events = some s) (id ino : ℕ)
    (hret : s.saves id = .returned ino) :
    (Settled store s.disk ino → Survives store events s id) ∧
      (Rotates store start → Survives store events s id → Settled store s.disk ino) :=
  ⟨survives_of_settled hrun hret, settled_of_survives hrun hret⟩

/-- A `save` that returned, and whose directory changes became durable then. -/
theorem survives_of_commits :
    ∃ s, (TokenStore.ofToken "t" (.ofRefresh "new")).run (Start.holding "t" (.ofRefresh "old")).sys
        (saveAlone 0 "k" 100 ++ [.commit, .commit]) = some s ∧
      s.saves 0 = .returned 1 ∧
      Survives (.ofToken "t" (.ofRefresh "new")) (saveAlone 0 "k" 100 ++ [.commit, .commit])
        s 0 := by
  let store : TokenStore := .ofToken "t" (.ofRefresh "new")
  let start : Start store.name := .holding "t" (.ofRefresh "old")
  have hends : ((store.run start.sys (saveAlone 0 "k" 100 ++ [.commit, .commit])).map fun s =>
      (s.saves 0, s.disk.durableDir, s.disk.queue.length)) = some (.returned 1, true, 0) := by
    decide +kernel
  obtain ⟨s, hrun, heq⟩ := Option.map_eq_some_iff.mp hends
  obtain ⟨hret, hdir, hqueue⟩ : s.saves 0 = .returned 1 ∧ s.disk.durableDir = true ∧
      s.disk.queue.length = 0 := by simpa using heq
  refine ⟨s, hrun, hret, (survives_iff store start _ s hrun 0 1 hret).1 ⟨hdir, ?_⟩⟩
  rw [List.eq_nil_of_length_eq_zero hqueue]
  exact fun op hop => absurd hop List.not_mem_nil

/-- **A returned save is not durable.** The power is lost right after the
`save` of a rotated token returned, and the token before it comes back. -/
theorem survives_fails_on_rotation :
    ∃ s, (TokenStore.ofToken "t" (.ofRefresh "new")).run (Start.holding "t" (.ofRefresh "old")).sys
        (saveAlone 0 "k" 100) = some s ∧
      s.saves 0 = .returned 1 ∧
      (TokenStore.ofToken "t" (.ofRefresh "new")).loadAlone s.disk.powerLoss =
        .ok (some (.obj (Token.ofRefresh "old").members)) ∧
      ¬ Survives (.ofToken "t" (.ofRefresh "new")) (saveAlone 0 "k" 100) s 0 := by
  let store : TokenStore := .ofToken "t" (.ofRefresh "new")
  let start : Start store.name := .holding "t" (.ofRefresh "old")
  have hends : ((store.run start.sys (saveAlone 0 "k" 100)).map fun s =>
      (s.saves 0, s.disk.powerLoss.isDir, s.disk.powerLoss.entries "t",
        s.disk.powerLoss.data 0)) =
      some (.returned 1, true, some 0, serialise (.ofRefresh "old")) := by
    decide +kernel
  obtain ⟨s, hrun, heq⟩ := Option.map_eq_some_iff.mp hends
  obtain ⟨hret, hdir, hentry, hdata⟩ : s.saves 0 = .returned 1 ∧
      s.disk.powerLoss.isDir = true ∧ s.disk.powerLoss.entries "t" = some 0 ∧
      s.disk.powerLoss.data 0 = serialise (.ofRefresh "old") := by simpa using heq
  have hload : store.loadAlone s.disk.powerLoss =
      .ok (some (.obj (Token.ofRefresh "old").members)) :=
    loadAlone_of_entry hdir hentry hdata
  refine ⟨s, hrun, hret, hload, ?_⟩
  rintro ⟨before, after, id', -, -, hnew⟩
  -- every `save` of the run is of the new token
  rw [hload] at hnew
  simp [TokenStore.ofToken, Token.ofRefresh] at hnew

end KgaGateway
