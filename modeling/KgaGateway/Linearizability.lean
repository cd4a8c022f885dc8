import KgaGateway.TokenInvariant

/-!
# Loads are atomic

A `load` reads its file in pieces, while other calls go on. It still returns
one token, whole: the one that was last moved to the target when it opened the
file. Opening is where a `load` takes effect, the rename is where a `save`
does (`load_atomic`).

The state of a `load` is about the past, so its part of the invariant is about
the run: what was seen is a prefix of the token that was current at the open.
-/

namespace KgaGateway

/-! ## The history of the target -/

/-- The token an event moves to the target. -/
def TokenStore.moved (store : TokenStore) : StoreEvent → Option Token
  | .save id .replace => some (store.token id)
  | _ => none

/-- The tokens the target held in a run: the one stored at first, then those
moved there, in order. -/
def TokenStore.history (store : TokenStore) (start : Start store.name)
    (events : List StoreEvent) : List Token :=
  start.token.toList ++ events.filterMap store.moved

/-- The token last moved to the target in a run, or stored at first. -/
def TokenStore.last (store : TokenStore) (start : Start store.name)
    (events : List StoreEvent) : Option Token :=
  (store.history start events).getLast?

variable {store : TokenStore} {start : Start store.name} {events : List StoreEvent}

theorem moved_eq_some {e : StoreEvent} {token : Token} :
    store.moved e = some token ↔ ∃ id, e = .save id .replace ∧ token = store.token id := by
  constructor
  · intro h
    unfold TokenStore.moved at h
    split at h
    · rename_i id
      exact ⟨id, rfl, (Option.some.inj h).symm⟩
    · cases h
  · rintro ⟨id, rfl, rfl⟩
    rfl

theorem moved_eq_none {e : StoreEvent} (h : ∀ id, e ≠ .save id .replace) :
    store.moved e = none := by
  refine Option.eq_none_iff_forall_ne_some.mpr fun token hmoved => ?_
  obtain ⟨id, he, -⟩ := moved_eq_some.mp hmoved
  exact h id he

theorem mem_moved {token : Token} : token ∈ events.filterMap store.moved ↔
    ∃ id, .save id .replace ∈ events ∧ token = store.token id := by
  simp only [List.mem_filterMap, moved_eq_some]
  constructor
  · rintro ⟨-, he, id, rfl, htoken⟩
    exact ⟨id, he, htoken⟩
  · rintro ⟨id, he, htoken⟩
    exact ⟨_, he, id, rfl, htoken⟩

theorem mem_history {token : Token} : token ∈ store.history start events ↔
    start.token = some token ∨ ∃ id, .save id .replace ∈ events ∧ token = store.token id := by
  rw [TokenStore.history, List.mem_append, Option.mem_toList, mem_moved]

theorem TokenStore.history_append_singleton (e : StoreEvent) :
    store.history start (events ++ [e]) = store.history start events ++ (store.moved e).toList := by
  rw [history, List.filterMap_append, ← List.append_assoc, ← history]
  cases hmoved : store.moved e <;> simp [hmoved]

/-- A step adds the token it moves to the versions, and nothing else. -/
theorem Advance.versions {s' : Sys} {e : StoreEvent} {r r' : Register Version}
    (h : Advance store s' e r r') :
    ∃ more, r'.versions = r.versions ++ more ∧ more.map Prod.snd = (store.moved e).toList := by
  cases h with
  | push => exact ⟨[_], Register.versions_push .., rfl⟩
  | settle => exact ⟨[], by simp, rfl⟩
  | stay hne =>
    refine ⟨[], (List.append_nil _).symm, ?_⟩
    rw [moved_eq_none hne]
    rfl

theorem Advance.history {s' : Sys} {e : StoreEvent} {r r' : Register Version}
    (h : Advance store s' e r r')
    (hr : r.versions.map Prod.snd = store.history start events) :
    r'.versions.map Prod.snd = store.history start (events ++ [e]) := by
  obtain ⟨more, hversions, hmore⟩ := h.versions
  rw [hversions, List.map_append, hmore, hr, TokenStore.history_append_singleton]

theorem Advance.versions_prefix {s' : Sys} {e : StoreEvent} {r r' : Register Version}
    (h : Advance store s' e r r') : r.versions <+: r'.versions := by
  obtain ⟨more, hversions, -⟩ := h.versions
  exact ⟨more, hversions.symm⟩

theorem Advance.settled_prefix {s' : Sys} {e : StoreEvent} {r r' : Register Version}
    (h : Advance store s' e r r') : r.settled <+: r'.settled := by
  cases h with
  | push => exact List.prefix_rfl
  | settle =>
    rw [Register.settle]
    split
    · exact List.prefix_rfl
    · exact List.prefix_append ..
  | stay => exact List.prefix_rfl

/-! ## The loads under way -/

/-- The run up to the point where a `load` opens the target. -/
def OpenedAfter (events : List StoreEvent) (id : ℕ) (before : List StoreEvent) : Prop :=
  .load id .open ∉ before ∧ ∃ after, events = before ++ .load id .open :: after

theorem OpenedAfter.snoc {id : ℕ} {before : List StoreEvent}
    (h : OpenedAfter events id before) (e : StoreEvent) :
    OpenedAfter (events ++ [e]) id before := by
  obtain ⟨hnot, after, rfl⟩ := h
  exact ⟨hnot, after ++ [e], by simp⟩

/-- The run up to the open has what happened before the `load` was called. -/
theorem prefix_of_openedAfter {events events' before : List StoreEvent} {id : ℕ}
    (h : OpenedAfter (events ++ events') id before) (hnot : .load id .open ∉ events) :
    events <+: before := by
  obtain ⟨-, after, hsplit⟩ := h
  rcases List.append_eq_append_iff.mp hsplit with ⟨more, rfl, -⟩ | ⟨more, rfl, hmore⟩
  · exact List.prefix_append ..
  · cases more with
    | nil => simp
    | cons e more =>
      obtain ⟨rfl, -⟩ := List.cons.inj hmore
      exact absurd (List.mem_append_right _ (List.mem_cons_self ..)) hnot

/-- What a `load` has seen, or returned, is the token current at its open. -/
def LoadOk (store : TokenStore) (start : Start store.name) (events : List StoreEvent)
    (r : Register Version) (id : ℕ) : LoadPc → Prop
  | .idle => .load id .open ∉ events
  | .reading ino seen => ∃ before token, OpenedAfter events id before ∧
      store.last start before = some token ∧ (ino, token) ∈ r.versions ∧ seen <+: serialise token
  | .done result => ∃ before, OpenedAfter events id before ∧
      result = .ok ((store.last start before).map fun token => .obj token.members)
  | .killed => True

/-- An event of another call, or of the system. -/
theorem LoadOk.snoc {r r' : Register Version} {id : ℕ} {pc : LoadPc} {e : StoreEvent}
    (h : LoadOk store start events r id pc) (hsub : r.versions <+: r'.versions)
    (hne : e ≠ .load id .open) : LoadOk store start (events ++ [e]) r' id pc := by
  cases pc with
  | idle =>
    intro hmem
    rcases List.mem_append.mp hmem with hmem | hmem
    · exact h hmem
    · exact hne (List.mem_singleton.mp hmem).symm
  | reading ino seen =>
    obtain ⟨before, token, hopen, hlast, hmem, hseen⟩ := h
    exact ⟨before, token, hopen.snoc e, hlast, hsub.subset hmem, hseen⟩
  | done result =>
    obtain ⟨before, hopen, hresult⟩ := h
    exact ⟨before, hopen.snoc e, hresult⟩
  | killed => trivial

/-- What the register's current version is, when it represents the history. -/
theorem last_eq_current {r : Register Version}
    (hr : r.versions.map Prod.snd = store.history start events) :
    store.last start events = r.current.map Prod.snd := by
  rw [TokenStore.last, ← hr, List.getLast?_map, Register.current]

/-- Opening: what is found is the file of the current version. -/
theorem LoadOk.step_open {r : Register Version} {disk : Disk String Char} {id : ℕ} {pc' : LoadPc}
    (h : .load id .open ∉ events) (hdisk : Represents store r disk)
    (hr : r.versions.map Prod.snd = store.history start events)
    (hstep : store.loadStep disk .idle .open = some pc') :
    LoadOk store start (events ++ [.load id .open]) r id pc' := by
  have hopen : OpenedAfter (events ++ [.load id .open]) id events := ⟨h, [], rfl⟩
  have hlast := last_eq_current hr
  simp only [TokenStore.loadStep, hdisk.lookup] at hstep
  cases hcurrent : r.current with
  | none =>
    rw [hcurrent] at hstep hlast
    cases hstep
    exact ⟨events, hopen, by rw [hlast]; rfl⟩
  | some p =>
    rw [hcurrent] at hstep hlast
    cases hstep
    exact ⟨events, p.2, hopen, hlast, List.mem_of_getLast? hcurrent, List.nil_prefix⟩

/-- Reading: the file of a version does not change any more. -/
theorem LoadOk.step_read {r : Register Version} {disk : Disk String Char} {id ino n : ℕ}
    {seen : List Char} (h : LoadOk store start events r id (.reading ino seen))
    (hdisk : Represents store r disk) :
    LoadOk store start (events ++ [.load id (.read n)]) r id
      (.reading ino (seen ++ ((disk.data ino).drop seen.length).take n)) := by
  obtain ⟨before, token, hopen, hlast, hmem, hseen⟩ := h
  refine ⟨before, token, hopen.snoc _, hlast, hmem, ?_⟩
  obtain ⟨more, hmore⟩ := hseen
  rw [(hdisk.held _ hmem).2.data, ← hmore, List.drop_left, List.prefix_append_right_inj]
  exact List.take_prefix ..

/-- The end of the file: what was read is the whole token. -/
theorem LoadOk.step_eof {r : Register Version} {disk : Disk String Char} {id ino : ℕ}
    {seen : List Char} (h : LoadOk store start events r id (.reading ino seen))
    (hdisk : Represents store r disk) (heof : (disk.data ino).length ≤ seen.length) :
    LoadOk store start (events ++ [.load id .eof]) r id
      (.done (parseContent store.reader seen)) := by
  obtain ⟨before, token, hopen, hlast, hmem, hseen⟩ := h
  refine ⟨before, hopen.snoc _, ?_⟩
  rw [(hdisk.held _ hmem).2.data] at heof
  rw [hseen.eq_of_length_le heof, parseContent_serialise, hlast]
  rfl

/-- A step of a `load` keeps its part of the invariant. -/
theorem LoadOk.step {r : Register Version} {disk : Disk String Char} {id : ℕ} {pc pc' : LoadPc}
    {op : LoadOp} (h : LoadOk store start events r id pc) (hdisk : Represents store r disk)
    (hr : r.versions.map Prod.snd = store.history start events)
    (hstep : store.loadStep disk pc op = some pc') :
    LoadOk store start (events ++ [.load id op]) r id pc' := by
  cases pc with
  | idle =>
    cases op with
    | «open» => exact LoadOk.step_open h hdisk hr hstep
    | kill =>
      cases hstep
      trivial
    | read | eof => cases hstep
  | reading ino seen =>
    cases op with
    | read n =>
      cases hstep
      exact h.step_read hdisk
    | eof =>
      obtain ⟨heof, hpc⟩ := Option.ite_none_right_eq_some.mp hstep
      cases hpc
      exact h.step_eof hdisk heof
    | kill =>
      cases hstep
      trivial
    | «open» => cases hstep
  | done | killed => cases op <;> cases hstep

/-! ## Runs -/

/-- What holds after a run. -/
structure Reached (store : TokenStore) (start : Start store.name) (events : List StoreEvent)
    (r : Register Version) (s : Sys) : Prop where
  inv : Inv store r s
  history : r.versions.map Prod.snd = store.history start events
  loads : ∀ id, LoadOk store start events r id (s.loads id)
  /-- what has settled stays settled -/
  settled : start.stored.toList <+: r.settled
  /-- a directory that was there at first is durable -/
  durableDir : start.stored.isSome = true → s.disk.isDir = true ∧ s.disk.durableDir = true

theorem Reached.init : Reached store start [] start.register start.sys where
  inv := start.inv
  history := by
    rw [TokenStore.history, List.filterMap_nil, List.append_nil, Start.token, Register.versions,
      Start.register, List.append_nil]
    cases start.stored <;> rfl
  loads _ := List.not_mem_nil
  settled := List.prefix_rfl
  durableDir h := ⟨start.isDir h, start.durableDir.trans (start.isDir h)⟩

/-- The directory and its durability, through one step. -/
theorem step_durableDir {s s' : Sys} {e : StoreEvent} (hstep : store.step s e = some s')
    (h : s.disk.isDir = true ∧ s.disk.durableDir = true) :
    s'.disk.isDir = true ∧ s'.disk.durableDir = true := by
  cases e with
  | save id op =>
    obtain ⟨⟨disk', pc'⟩, hsave, rfl⟩ := Option.map_eq_some_iff.mp hstep
    have hm := move_of_saveStep hsave
    generalize s.saves id = pc at hm
    cases hm with
    | mkdir => exact ⟨rfl, h.2⟩
    | _ => exact h
  | load id op =>
    obtain ⟨pc, -, rfl⟩ := Option.map_eq_some_iff.mp hstep
    exact h
  | writeback ino content =>
    cases hstep
    exact h
  | commit =>
    cases hstep
    simpa using h
  | commitDir =>
    cases hstep
    exact ⟨h.1, h.1⟩

/-- The loads, through one step. -/
theorem Reached.step_loads {r r' : Register Version} {s s' : Sys} {e : StoreEvent}
    (h : Reached store start events r s) (hstep : store.step s e = some s')
    (hadvance : Advance store s' e r r') :
    ∀ id, LoadOk store start (events ++ [e]) r' id (s'.loads id) := by
  intro id
  cases e with
  | load id' op =>
    obtain ⟨pc, hload, rfl⟩ := Option.map_eq_some_iff.mp hstep
    have hr : r' = r := by
      cases hadvance
      rfl
    rcases eq_or_ne id id' with rfl | hne
    · simp only [Function.update_self, hr]
      exact (h.loads id).step h.inv.disk h.history hload
    · simp only [Function.update_of_ne hne]
      refine (h.loads id).snoc hadvance.versions_prefix fun he => hne ?_
      cases he
      rfl
  | save id' op =>
    obtain ⟨p, -, rfl⟩ := Option.map_eq_some_iff.mp hstep
    exact (h.loads id).snoc hadvance.versions_prefix nofun
  | writeback ino content =>
    cases hstep
    exact (h.loads id).snoc hadvance.versions_prefix nofun
  | commit =>
    cases hstep
    exact (h.loads id).snoc hadvance.versions_prefix nofun
  | commitDir =>
    cases hstep
    exact (h.loads id).snoc hadvance.versions_prefix nofun

/-- **The run lemma**, by induction on the run from its end. -/
theorem reached_of_run : ∀ (events : List StoreEvent) {s : Sys},
    store.run start.sys events = some s → ∃ r, Reached store start events r s := by
  intro events
  induction events using List.reverseRecOn with
  | nil =>
    intro s hrun
    cases hrun
    exact ⟨_, .init⟩
  | append_singleton events e ih =>
    intro s hrun
    obtain ⟨m, hm, hstep⟩ := run_append_singleton.mp hrun
    obtain ⟨r, hr⟩ := ih hm
    obtain ⟨r', hinv, hadvance⟩ := hr.inv.step hstep
    exact ⟨r', hinv, hadvance.history hr.history, hr.step_loads hstep hadvance,
      hr.settled.trans hadvance.settled_prefix, fun h => step_durableDir hstep (hr.durableDir h)⟩

/-- From any state that keeps the invariant, a run adds the tokens it moves. -/
theorem Inv.run : ∀ (events : List StoreEvent) {r : Register Version} {s s' : Sys},
    Inv store r s → store.run s events = some s' → ∃ r', Inv store r' s' ∧
      r.settled <+: r'.settled ∧
      ∃ more, r'.versions = r.versions ++ more ∧
        more.map Prod.snd = events.filterMap store.moved := by
  intro events
  induction events using List.reverseRecOn with
  | nil =>
    intro r s s' h hrun
    cases hrun
    exact ⟨r, h, List.prefix_rfl, [], (List.append_nil _).symm, rfl⟩
  | append_singleton events e ih =>
    intro r s s' h hrun
    obtain ⟨m, hm, hstep⟩ := run_append_singleton.mp hrun
    obtain ⟨r₁, hr₁, hsettled₁, more₁, hversions₁, hmore₁⟩ := ih h hm
    obtain ⟨r₂, hr₂, hadvance⟩ := hr₁.step hstep
    obtain ⟨more₂, hversions₂, hmore₂⟩ := hadvance.versions
    refine ⟨r₂, hr₂, hsettled₁.trans hadvance.settled_prefix, more₁ ++ more₂, ?_, ?_⟩
    · rw [hversions₂, hversions₁, List.append_assoc]
    · rw [List.map_append, hmore₁, hmore₂, List.filterMap_append]
      cases hmoved : store.moved e <;> simp [hmoved]

/-! ## Saves that returned -/

/-- A `save` returns by its rename. -/
theorem step_returned {s s' : Sys} {e : StoreEvent} {id ino : ℕ}
    (hstep : store.step s e = some s') (hret : s'.saves id = .returned ino) :
    s.saves id = .returned ino ∨ e = .save id .replace := by
  cases e with
  | save id' op =>
    obtain ⟨⟨disk', pc'⟩, hsave, rfl⟩ := Option.map_eq_some_iff.mp hstep
    rcases eq_or_ne id id' with rfl | hne
    · right
      simp only [Function.update_self] at hret
      have hm := move_of_saveStep hsave
      rw [hret] at hm
      generalize s.saves id = pc at hm
      cases hm with
      | replace => rfl
      | fail hfail => cases pc <;> cases hfail
    · left
      simpa only [Function.update_of_ne hne] using hret
  | load id' op =>
    obtain ⟨pc, -, rfl⟩ := Option.map_eq_some_iff.mp hstep
    exact Or.inl hret
  | writeback | commit | commitDir =>
    cases hstep
    exact Or.inl hret

theorem replace_mem_of_returned {id ino : ℕ} : ∀ (events : List StoreEvent) {s : Sys},
    store.run start.sys events = some s → s.saves id = .returned ino →
      .save id .replace ∈ events := by
  intro events
  induction events using List.reverseRecOn with
  | nil =>
    intro s hrun hret
    cases hrun
    cases hret
  | append_singleton events e ih =>
    intro s hrun hret
    obtain ⟨m, hm, hstep⟩ := run_append_singleton.mp hrun
    rcases step_returned hstep hret with hret | rfl
    · exact List.mem_append_left _ (ih hm hret)
    · exact List.mem_append_right _ (List.mem_singleton.mpr rfl)

/-- After the rename of a `save`, the last token is its own or a later one's. -/
theorem last_after_replace (before after : List StoreEvent) (id : ℕ) :
    ∃ id', (id' = id ∨ .save id' .replace ∈ after) ∧
      store.last start (before ++ .save id .replace :: after) = some (store.token id') := by
  induction after using List.reverseRecOn with
  | nil =>
    refine ⟨id, Or.inl rfl, ?_⟩
    simp [TokenStore.last, TokenStore.history, TokenStore.moved, List.getLast?_append]
  | append_singleton after e ih =>
    obtain ⟨id', hid', hlast⟩ := ih
    have hsnoc : store.last start (before ++ .save id .replace :: (after ++ [e])) =
        ((store.moved e).or (store.last start (before ++ .save id .replace :: after))) := by
      rw [← List.cons_append, ← List.append_assoc, TokenStore.last,
        TokenStore.history_append_singleton, List.getLast?_append, ← TokenStore.last]
      cases store.moved e <;> rfl
    rw [hsnoc]
    cases hmoved : store.moved e with
    | none =>
      exact ⟨id', hid'.imp_right (List.mem_append_left _), by simpa using hlast⟩
    | some token =>
      obtain ⟨id'', rfl, rfl⟩ := moved_eq_some.mp hmoved
      exact ⟨id'', Or.inr (List.mem_append_right _ (List.mem_singleton.mpr rfl)), rfl⟩

/-- **Loads are atomic.** In every run, with any number of saves and loads in
any interleaving, failures and kills, a `load` that completes returns `None` if
nothing was stored when it opened the target, and otherwise exactly the token
whose rename was the last one before; it never ends with a JSON error. So it
never sees a token older than that of a `save` that had returned when it
opened, and the check for a provider token fails only if nothing was stored or
the last token was empty. -/
theorem load_atomic (store : TokenStore) (start : Start store.name) (events : List StoreEvent)
    (s : Sys) (hrun : store.run start.sys events = some s) (id : ℕ) (result : LoadResult)
    (hdone : s.loads id = .done result) :
    ∃ before after, events = before ++ .load id .open :: after ∧ .load id .open ∉ before ∧
      result = .ok ((store.last start before).map fun token => .obj token.members) ∧
      (∀ m id' ino, store.run start.sys before = some m → m.saves id' = .returned ino →
        ∃ earlier later id'', before = earlier ++ .save id' .replace :: later ∧
          (id'' = id' ∨ .save id'' .replace ∈ later) ∧
          result = .ok (some (.obj (store.token id'').members))) ∧
      (∀ members e, result = .ok (members.map .obj) → ensureValidToken members = .error e →
        store.last start before = none ∨
          ∃ token, store.last start before = some token ∧ token.members = []) := by
  obtain ⟨r, hr⟩ := reached_of_run events hrun
  have hload := hr.loads id
  rw [hdone] at hload
  obtain ⟨before, ⟨hnot, after, hsplit⟩, hresult⟩ := hload
  refine ⟨before, after, hsplit, hnot, hresult, ?_, ?_⟩
  · intro m id' ino hm hret
    obtain ⟨earlier, later, hbefore⟩ :=
      List.append_of_mem (replace_mem_of_returned before hm hret)
    obtain ⟨id'', hid'', hlast⟩ := @last_after_replace store start earlier later id'
    refine ⟨earlier, later, id'', hbefore, hid'', ?_⟩
    rw [hresult, hbefore, hlast]
    rfl
  · intro members e hmembers hensure
    rw [hresult] at hmembers
    cases hlast : store.last start before with
    | none => exact Or.inl rfl
    | some token =>
      right
      refine ⟨token, rfl, ?_⟩
      rw [hlast] at hmembers
      cases members with
      | none => cases hmembers
      | some members =>
        obtain rfl : token.members = members := by
          simpa using hmembers
        by_contra hne
        rw [ensureValidToken, List.isEmpty_eq_false_iff.mpr hne] at hensure
        cases hensure

/-- A `load` that opens the file, and reads on after a `save` has replaced it,
returns the old token. -/
theorem load_atomic_of_slow_load :
    ∃ s, (TokenStore.ofToken "t" (.ofRefresh "new")).run (Start.holding "t" (.ofRefresh "old")).sys
        (.load 0 .open :: .load 0 (.read 4) :: saveAlone 0 "k" 100 ++
          [.load 0 (.read 100), .load 0 .eof]) = some s ∧
      s.loads 0 = .done (.ok (some (.obj (Token.ofRefresh "old").members))) := by
  let store : TokenStore := .ofToken "t" (.ofRefresh "new")
  let start : Start store.name := .holding "t" (.ofRefresh "old")
  let events : List StoreEvent :=
    .load 0 .open :: .load 0 (.read 4) :: saveAlone 0 "k" 100 ++ [.load 0 (.read 100), .load 0 .eof]
  have hends : ((store.run start.sys events).bind fun s => (s.loads 0).result).isSome = true := by
    decide +kernel
  obtain ⟨result, hresult⟩ := Option.isSome_iff_exists.mp hends
  obtain ⟨s, hrun, hdone⟩ := Option.bind_eq_some_iff.mp hresult
  have hdone' : s.loads 0 = .done result := by
    generalize s.loads 0 = pc at hdone
    cases pc <;> cases hdone
    rfl
  obtain ⟨before, after, hsplit, hnot, hload, -⟩ :=
    load_atomic store start events s hrun 0 result hdone'
  refine ⟨s, hrun, ?_⟩
  cases before with
  | nil =>
    rw [hdone', hload]
    rfl
  | cons e before =>
    -- the open is the first event
    obtain ⟨rfl, -⟩ := List.cons.inj hsplit
    exact absurd (List.mem_cons_self ..) hnot

end KgaGateway
