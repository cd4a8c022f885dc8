import KgaGateway.Recovery

/-!
# One outage after the other

Tokens are saved and loaded, the process is restarted or the power is lost, and
so on, in any order. An epoch is what happens between two outages.

The proofs go from epoch to epoch with what lies behind: a disk the machine
started from, and one run since then, in which the calls of all processes so
far are numbered apart. A restart prolongs the run, a power loss begins a new
one (`exists_past`).
-/

namespace KgaGateway

/-! ## Epochs -/

/-- The tokens that are saved until the next outage, the run, and the outage. -/
structure Epoch : Type where
  token : ℕ → Token
  events : List StoreEvent
  outage : Outage

variable {name : String} {reader : FloatReader}

/-- The store of an epoch. -/
abbrev Epoch.store (name : String) (reader : FloatReader) (epoch : Epoch) : TokenStore :=
  ⟨name, reader, epoch.token⟩

/-- The epochs one after the other: the states at their ends. -/
def runEpochs (name : String) (reader : FloatReader) : Sys → List Epoch → Option (List Sys)
  | _, [] => some []
  | s, epoch :: epochs => do
    let ending ← (epoch.store name reader).run s epoch.events
    let endings ← runEpochs name reader (epoch.outage.after ending) epochs
    return ending :: endings

theorem runEpochs_cons {s : Sys} {epoch : Epoch} {epochs : List Epoch} {endings : List Sys}
    (h : runEpochs name reader s (epoch :: epochs) = some endings) :
    ∃ ending rest, (epoch.store name reader).run s epoch.events = some ending ∧
      runEpochs name reader (epoch.outage.after ending) epochs = some rest ∧
      endings = ending :: rest := by
  obtain ⟨ending, hrun, h⟩ := Option.bind_eq_some_iff.mp h
  obtain ⟨rest, hrest, h⟩ := Option.bind_eq_some_iff.mp h
  exact ⟨ending, rest, hrun, hrest, (Option.some.inj h).symm⟩

/-- A `save` of the epoch of this number moved the token to the target. -/
def Moved (epochs : List Epoch) (k : ℕ) (token : Token) : Prop :=
  ∃ epoch, epochs[k]? = some epoch ∧ MovedIn epoch.token epoch.events token

theorem moved_succ {epoch : Epoch} {epochs : List Epoch} {k : ℕ} {token : Token} :
    Moved (epoch :: epochs) (k + 1) token ↔ Moved epochs k token := by
  simp [Moved]

theorem moved_zero {epoch : Epoch} {epochs : List Epoch} {token : Token} :
    Moved (epoch :: epochs) 0 token ↔ MovedIn epoch.token epoch.events token := by
  simp [Moved]

/-- A token that counts as that of a `save`, in a later epoch: the `save` moved
it to the target, or one after it, in its own epoch or a later one. -/
def MovedSince (epochs : List Epoch) (j id k : ℕ) (token : Token) : Prop :=
  (∃ epoch, epochs[j]? = some epoch ∧ MovedFrom epoch.token epoch.events id token) ∨
    ∃ i, j < i ∧ i ≤ k ∧ Moved epochs i token

/-- What an epoch moved to the target is still there in another, unless it was
replaced: at the first power loss in between, if there is one, its rename had
settled. -/
def Kept (name : String) (reader : FloatReader) (epochs : List Epoch) (endings : List Sys)
    (j k ino : ℕ) : Prop :=
  ∀ i epoch ending, j ≤ i → i < k → epochs[i]? = some epoch → endings[i]? = some ending →
    epoch.outage = .powerLoss →
    (∀ i' epoch', j ≤ i' → i' < i → epochs[i']? = some epoch' → epoch'.outage = .restart) →
      Settled (epoch.store name reader) ending.disk ino

section Kept

variable {epoch : Epoch} {epochs : List Epoch} {ending : Sys} {endings : List Sys} {j k ino : ℕ}

theorem Kept.succ (h : Kept name reader (epoch :: epochs) (ending :: endings) (j + 1) (k + 1) ino) :
    Kept name reader epochs endings j k ino := by
  intro i epoch' ending' hj hk hepoch hending hloss hrestarts
  refine h (i + 1) epoch' ending' (Nat.succ_le_succ hj) (Nat.succ_lt_succ hk) hepoch hending hloss ?_
  rintro i' epoch'' hj' hi' hepoch'
  obtain ⟨i', rfl⟩ := Nat.exists_eq_succ_of_ne_zero (Nat.ne_of_gt (Nat.zero_lt_of_lt hj'))
  exact hrestarts i' epoch'' (Nat.le_of_succ_le_succ hj') (Nat.lt_of_succ_lt_succ hi') hepoch'

theorem Kept.restart (h : Kept name reader (epoch :: epochs) (ending :: endings) 0 (k + 1) ino)
    (hrestart : epoch.outage = .restart) : Kept name reader epochs endings 0 k ino := by
  intro i epoch' ending' _ hk hepoch hending hloss hrestarts
  refine h (i + 1) epoch' ending' (Nat.zero_le _) (Nat.succ_lt_succ hk) hepoch hending hloss ?_
  rintro i' epoch'' - hi' hepoch'
  cases i' with
  | zero =>
    obtain rfl := Option.some.inj hepoch'
    exact hrestart
  | succ i' => exact hrestarts i' epoch'' (Nat.zero_le _) (Nat.lt_of_succ_lt_succ hi') hepoch'

theorem Kept.powerLoss (h : Kept name reader (epoch :: epochs) (ending :: endings) 0 (k + 1) ino)
    (hloss : epoch.outage = .powerLoss) : Settled (epoch.store name reader) ending.disk ino :=
  h 0 epoch ending (Nat.zero_le _) (Nat.succ_pos k) rfl rfl hloss fun _ _ _ hi =>
    absurd hi (Nat.not_lt_zero _)

end Kept

/-! ## One run -/

section Run

variable {store : TokenStore} {start : Start store.name} {events : List StoreEvent} {s : Sys}
  {id : ℕ} {result : LoadResult}

/-- A `load` ends with the token of the start, or with one moved to the target
since. -/
theorem loaded_of_run (hrun : store.run start.sys events = some s)
    (hdone : s.loads id = .done result) :
    ∃ found : Option Token, result = .ok (found.map fun token => .obj token.members) ∧
      (found = start.token ∨ ∃ t, found = some t ∧ MovedIn store.token events t) := by
  obtain ⟨r, hr⟩ := reached_of_run events hrun
  have hload := hr.loads id
  rw [hdone] at hload
  obtain ⟨before, ⟨-, after, rfl⟩, hresult⟩ := hload
  refine ⟨store.last start before, hresult, ?_⟩
  cases hlast : store.last start before with
  | none =>
    left
    have hnil := List.getLast?_eq_none_iff.mp hlast
    rw [TokenStore.history, List.append_eq_nil_iff] at hnil
    exact (Option.toList_eq_nil_iff.mp hnil.1).symm
  | some token =>
    rcases mem_history.mp (List.mem_of_getLast? hlast) with hfirst | ⟨id', hid', rfl⟩
    · exact Or.inl hfirst.symm
    · exact Or.inr ⟨_, rfl, id', List.mem_append_left _ hid', rfl⟩

/-- If it opens its file after a `save` moved its token, it ends with this one
or a later one. -/
theorem loaded_after_replace {earlier later : List StoreEvent} {saver : ℕ}
    (hrun : store.run start.sys (earlier ++ later) = some s) (hdone : s.loads id = .done result)
    (hnot : .load id .open ∉ earlier) (hmoved : .save saver .replace ∈ earlier) :
    ∃ t, result = .ok (some (.obj t.members)) ∧
      MovedFrom store.token (earlier ++ later) saver t := by
  obtain ⟨r, hr⟩ := reached_of_run _ hrun
  have hload := hr.loads id
  rw [hdone] at hload
  obtain ⟨before, hopen, hresult⟩ := hload
  obtain ⟨more, rfl⟩ := prefix_of_openedAfter hopen hnot
  obtain ⟨-, after, hsplit⟩ := hopen
  obtain ⟨first, rest, rfl⟩ := List.append_of_mem hmoved
  rw [List.append_assoc, List.cons_append] at hresult
  obtain ⟨id', hid', hlast⟩ := @last_after_replace store start first (rest ++ more) saver
  rw [hlast] at hresult
  refine ⟨store.token id', hresult, first, rest ++ more ++ .load id .open :: after, id', ?_, ?_, rfl⟩
  · rw [hsplit]
    simp
  · exact hid'.imp_right fun hmem => List.mem_append_left _ hmem

end Run

/-! ## From epoch to epoch -/

section Past

variable {start : Start name} {token : ℕ → Token} {past : List StoreEvent} {s ending : Sys}
  {epoch : Epoch}

/-- What lies behind after one more epoch: a disk the machine started from, and
a run since then, with nothing in them that was not there. -/
theorem exists_past (hpast : (TokenStore.mk name reader token).run start.sys past = some s)
    (hrun : (epoch.store name reader).run (Outage.restart.after s) epoch.events = some ending) :
    ∃ (next : Start name) (token' : ℕ → Token) (past' : List StoreEvent) (s' : Sys),
      (TokenStore.mk name reader token').run next.sys past' = some s' ∧
      Outage.restart.after s' = epoch.outage.after ending ∧
      (next.token = start.token ∨ ∃ t, next.token = some t ∧
        (MovedIn token past t ∨ MovedIn epoch.token epoch.events t)) ∧
      ∀ t, MovedIn token' past' t → MovedIn token past t ∨ MovedIn epoch.token epoch.events t := by
  obtain ⟨s', hjoined, hs'⟩ := run_restart hpast hrun
  cases epoch.outage with
  | restart =>
    refine ⟨start, _, _, s', hjoined, ?_, Or.inl rfl, fun t => movedIn_joined⟩
    exact Outage.restart.after_congr hs'.disk
  | powerLoss =>
    obtain ⟨next, hnext, htoken, -⟩ := exists_start_of_loss hjoined
    refine ⟨next, token, [], next.sys, rfl, ?_, htoken.imp_right ?_, fun t h => ?_⟩
    · rw [hnext]
      exact Outage.powerLoss.after_congr hs'.disk
    · rintro ⟨t, ht, hnext⟩
      exact ⟨t, hnext, movedIn_joined ht⟩
    · obtain ⟨id, hid, -⟩ := h
      exact absurd hid List.not_mem_nil

end Past

/-- What a `load` of any epoch finds, by induction on the epochs before it. -/
theorem loaded_of_past : ∀ (epochs : List Epoch) {start : Start name} {token : ℕ → Token}
    {past : List StoreEvent} {s : Sys} {endings : List Sys} {k id : ℕ} {ending : Sys}
    {result : LoadResult}, (TokenStore.mk name reader token).run start.sys past = some s →
      runEpochs name reader (Outage.restart.after s) epochs = some endings →
      endings[k]? = some ending → ending.loads id = .done result →
        ∃ found : Option Token, result = .ok (found.map fun token => .obj token.members) ∧
          (found = start.token ∨ ∃ t, found = some t ∧
            (MovedIn token past t ∨ ∃ j, j ≤ k ∧ Moved epochs j t)) := by
  intro epochs
  induction epochs with
  | nil =>
    intro start token past s endings k id ending result hpast h hending hdone
    cases h
    cases hending
  | cons epoch epochs ih =>
    intro start token past s endings k id ending result hpast h hending hdone
    obtain ⟨first, rest, hrun, hrest, rfl⟩ := runEpochs_cons h
    cases k with
    | zero =>
      obtain rfl := Option.some.inj hending
      obtain ⟨s', hjoined, hs'⟩ := run_restart hpast hrun
      obtain ⟨found, hresult, hfound⟩ := loaded_of_run hjoined ((hs'.loads id).trans hdone)
      refine ⟨found, hresult, hfound.imp_right ?_⟩
      rintro ⟨t, ht, hmoved⟩
      refine ⟨t, ht, (movedIn_joined hmoved).imp_right fun hmoved => ?_⟩
      exact ⟨0, Nat.le_refl 0, moved_zero.mpr hmoved⟩
    | succ k =>
      obtain ⟨next, token', past', s', hpast', hafter, htoken, hmoved⟩ := exists_past hpast hrun
      rw [← hafter] at hrest
      obtain ⟨found, hresult, hfound⟩ := ih hpast' hrest hending hdone
      refine ⟨found, hresult, ?_⟩
      have hbehind : ∀ {t}, MovedIn token past t ∨ MovedIn epoch.token epoch.events t →
          MovedIn token past t ∨ ∃ j, j ≤ k + 1 ∧ Moved (epoch :: epochs) j t := fun hor =>
        hor.imp_right fun hmoved => ⟨0, Nat.zero_le _, moved_zero.mpr hmoved⟩
      rcases hfound with rfl | ⟨t, rfl, hold | ⟨j, hj, hlater⟩⟩
      · refine htoken.imp_right ?_
        rintro ⟨t, ht, hor⟩
        exact ⟨t, ht, hbehind hor⟩
      · exact Or.inr ⟨t, rfl, hbehind (hmoved t hold)⟩
      · exact Or.inr ⟨t, rfl, Or.inr ⟨j + 1, Nat.succ_le_succ hj, moved_succ.mpr hlater⟩⟩

/-- From a start, nothing lies behind. -/
theorem run_nothing (start : Start name) :
    (TokenStore.mk name reader fun _ => .ofRefresh "").run start.sys [] = some start.sys := rfl

theorem loaded_of_runEpochs {start : Start name} {epochs : List Epoch} {endings : List Sys}
    (h : runEpochs name reader start.sys epochs = some endings) {k id : ℕ} {ending : Sys}
    {result : LoadResult} (hending : endings[k]? = some ending)
    (hdone : ending.loads id = .done result) :
    ∃ found : Option Token, result = .ok (found.map fun token => .obj token.members) ∧
      (found = start.token ∨ ∃ j token, j ≤ k ∧ Moved epochs j token ∧ found = some token) := by
  obtain ⟨found, hresult, hfound⟩ := loaded_of_past epochs (run_nothing start) h hending hdone
  refine ⟨found, hresult, hfound.imp_right ?_⟩
  rintro ⟨t, ht, ⟨_, hnil, -⟩ | ⟨j, hj, hmoved⟩⟩
  · exact absurd hnil List.not_mem_nil
  · exact ⟨j, t, hj, hmoved, ht⟩

/-- After a power loss, on a disk that holds one of these tokens. -/
theorem loaded_of_next {epochs : List Epoch} {next : Start name} {P : Token → Prop} {s' : Sys}
    {endings : List Sys} {k id : ℕ} {ending : Sys} {result : LoadResult} (hnext : next.sys = s')
    (htoken : ∃ t, P t ∧ next.token = some t)
    (h : runEpochs name reader s' epochs = some endings) (hending : endings[k]? = some ending)
    (hdone : ending.loads id = .done result) :
    ∃ t : Token, result = .ok (some (.obj t.members)) ∧ (P t ∨ ∃ j, j ≤ k ∧ Moved epochs j t) := by
  subst hnext
  obtain ⟨found, rfl, hfound⟩ := loaded_of_runEpochs h hending hdone
  obtain ⟨t, ht, hnext⟩ := htoken
  rcases hfound with rfl | ⟨j, t', hj, hmoved, rfl⟩
  · exact ⟨t, by rw [hnext]; rfl, Or.inl ht⟩
  · exact ⟨t', rfl, Or.inr ⟨j, hj, hmoved⟩⟩

/-- What a `load` finds if a `save` had returned before the outage behind it, by
induction up to the next power loss. -/
theorem loaded_after_outage : ∀ (epochs : List Epoch) {outage : Outage} {start : Start name}
    {token : ℕ → Token} {past : List StoreEvent} {s : Sys} {endings : List Sys}
    {saver ino k id : ℕ} {ending : Sys} {result : LoadResult},
    (TokenStore.mk name reader token).run start.sys past = some s →
      s.saves saver = .returned ino → runEpochs name reader (outage.after s) epochs = some endings →
      (outage = .powerLoss → Settled (TokenStore.mk name reader token) s.disk ino) →
      (outage = .restart → Kept name reader epochs endings 0 k ino) → endings[k]? = some ending →
      ending.loads id = .done result →
        ∃ t : Token, result = .ok (some (.obj t.members)) ∧
          (MovedFrom token past saver t ∨ ∃ j, j ≤ k ∧ Moved epochs j t) := by
  intro epochs
  induction epochs with
  | nil =>
    intro outage start token past s endings saver ino k id ending result hpast hret h _ _ hending
    cases h
    cases hending
  | cons epoch epochs ih =>
    intro outage start token past s endings saver ino k id ending result hpast hret h hsettled hkept
      hending hdone
    cases outage with
    | powerLoss =>
      obtain ⟨next, hnext, -, hfrom⟩ := exists_start_of_loss hpast
      exact loaded_of_next hnext (hfrom saver ino hret (hsettled rfl)) h hending hdone
    | restart =>
      obtain ⟨first, rest, hrun, hrest, rfl⟩ := runEpochs_cons h
      obtain ⟨s', hjoined, hs'⟩ := run_restart hpast hrun
      have hbehind : ∀ {t}, MovedFrom (both token epoch.token) (joined past epoch.events)
          (2 * saver) t → MovedFrom token past saver t ∨
            ∃ j, j ≤ k ∧ Moved (epoch :: epochs) j t := fun hfrom =>
        (movedFrom_joined_first hfrom).imp_right fun hmoved =>
          ⟨0, Nat.zero_le _, moved_zero.mpr hmoved⟩
      cases k with
      | zero =>
        obtain rfl := Option.some.inj hending
        -- the `load` is one of the second process, and opens its file after the first
        have hmoved := replace_mem_of_returned past hpast hret
        have hearlier : .save (2 * saver) .replace ∈ past.map (StoreEvent.renumber (2 * ·)) :=
          save_mem_renumber.mpr ⟨saver, rfl, hmoved⟩
        have hnot : .load (2 * id + 1) .open ∉ past.map (StoreEvent.renumber (2 * ·)) := by
          intro hmem
          obtain ⟨e, -, he⟩ := List.mem_map.mp hmem
          cases e <;> simp only [StoreEvent.renumber, reduceCtorEq, StoreEvent.load.injEq] at he
          omega
        obtain ⟨t, hresult, hfrom⟩ :=
          loaded_after_replace hjoined ((hs'.loads id).trans hdone) hnot hearlier
        exact ⟨t, hresult, hbehind hfrom⟩
      | succ k =>
        rw [Outage.after_congr epoch.outage hs'.disk.symm] at hrest
        obtain ⟨t, hresult, hor⟩ := ih hjoined ((hs'.before saver).trans hret) hrest
          (fun hloss => hs'.disk ▸ (hkept rfl).powerLoss hloss) (fun hr => (hkept rfl).restart hr)
          hending hdone
        refine ⟨t, hresult, hor.elim hbehind ?_⟩
        rintro ⟨j, hj, hmoved⟩
        exact Or.inr ⟨j + 1, Nat.succ_le_succ hj, moved_succ.mpr hmoved⟩

/-- What a `load` finds in an epoch after the one in which a `save` returned, by
induction on the epochs before that one. -/
theorem loaded_since_returned : ∀ (epochs : List Epoch) {start : Start name} {token : ℕ → Token}
    {past : List StoreEvent} {s : Sys} {endings : List Sys} {j k saver ino id : ℕ}
    {lost ending : Sys} {result : LoadResult},
    (TokenStore.mk name reader token).run start.sys past = some s →
      runEpochs name reader (Outage.restart.after s) epochs = some endings →
      endings[j]? = some lost → lost.saves saver = .returned ino →
      Kept name reader epochs endings j k ino → j < k → endings[k]? = some ending →
      ending.loads id = .done result →
        ∃ t : Token, result = .ok (some (.obj t.members)) ∧ MovedSince epochs j saver k t := by
  intro epochs
  induction epochs with
  | nil =>
    intro start token past s endings j k saver ino id lost ending result hpast h hlost
    cases h
    cases hlost
  | cons epoch epochs ih =>
    intro start token past s endings j k saver ino id lost ending result hpast h hlost hret hkept
      hjk hending hdone
    obtain ⟨first, rest, hrun, hrest, rfl⟩ := runEpochs_cons h
    obtain ⟨k, rfl⟩ := Nat.exists_eq_succ_of_ne_zero (Nat.ne_of_gt (Nat.zero_lt_of_lt hjk))
    cases j with
    | zero =>
      obtain rfl := Option.some.inj hlost
      obtain ⟨s', hjoined, hs'⟩ := run_restart hpast hrun
      rw [Outage.after_congr epoch.outage hs'.disk.symm] at hrest
      obtain ⟨t, hresult, hor⟩ := loaded_after_outage epochs hjoined
        ((hs'.saves saver).trans hret) hrest (fun hloss => hs'.disk ▸ hkept.powerLoss hloss)
        (fun hr => hkept.restart hr) hending hdone
      refine ⟨t, hresult, ?_⟩
      rcases hor with hfrom | ⟨i, hi, hmoved⟩
      · exact Or.inl ⟨epoch, rfl, movedFrom_joined_second hfrom⟩
      · exact Or.inr ⟨i + 1, Nat.succ_pos i, Nat.succ_le_succ hi, moved_succ.mpr hmoved⟩
    | succ j =>
      obtain ⟨next, token', past', s', hpast', hafter, -⟩ := exists_past hpast hrun
      rw [← hafter] at hrest
      obtain ⟨t, hresult, hsince⟩ := ih hpast' hrest hlost hret hkept.succ
        (Nat.lt_of_succ_lt_succ hjk) hending hdone
      refine ⟨t, hresult, hsince.imp (fun h => h) ?_⟩
      rintro ⟨i, hji, hik, hmoved⟩
      exact ⟨i + 1, Nat.succ_lt_succ hji, Nat.succ_le_succ hik, moved_succ.mpr hmoved⟩

/-- **Many outages.** However often the process is restarted and the power is
lost, a `load` that completes never ends with a JSON error: it finds what was
stored at first, or a token that a `save` of its epoch or of one before moved to
the target. And a `save` that has returned is not forgotten: if its rename had
settled at the next power loss, if there is one, every `load` after it finds its
token or a later one. -/
theorem epochs_consistent (name : String) (reader : FloatReader) (start : Start name)
    (epochs : List Epoch) (endings : List Sys)
    (h : runEpochs name reader start.sys epochs = some endings) :
    (∀ k ending id result, endings[k]? = some ending → ending.loads id = .done result →
      ∃ found : Option Token, result = .ok (found.map fun token => .obj token.members) ∧
        (found = start.token ∨ ∃ j token, j ≤ k ∧ Moved epochs j token ∧ found = some token)) ∧
    ∀ j k saver id ino lost ending result, endings[j]? = some lost →
      lost.saves saver = .returned ino → Kept name reader epochs endings j k ino → j < k →
      endings[k]? = some ending → ending.loads id = .done result →
        ∃ token : Token, result = .ok (some (.obj token.members)) ∧
          MovedSince epochs j saver k token := by
  refine ⟨fun k ending id result hending hdone => loaded_of_runEpochs h hending hdone, ?_⟩
  intro j k saver id ino lost ending result hlost hret hkept hjk hending hdone
  exact loaded_since_returned epochs (run_nothing start) h hlost hret hkept hjk hending hdone

/-- A `save`, a restart, a power loss when its rename has settled, another `save`
that has not, and a `load`. -/
def fourEpochs : List Epoch :=
  [⟨fun _ => .ofRefresh "new", saveAlone 0 "k" 100, .restart⟩,
    ⟨fun _ => .ofRefresh "new", [.commit, .commit], .powerLoss⟩,
    ⟨fun _ => .ofRefresh "newer", saveAlone 0 "k" 100, .powerLoss⟩,
    ⟨fun _ => .ofRefresh "newest", [.load 0 .open, .load 0 (.read 100), .load 0 .eof], .restart⟩]

/-- The `load` does not find the old token. -/
theorem epochs_consistent_of_two_saves :
    ∃ endings ending result token,
      runEpochs "t" .ofRepr (Start.holding "t" (.ofRefresh "old")).sys fourEpochs =
        some endings ∧
      endings[3]? = some ending ∧ ending.loads 0 = .done result ∧
      result = .ok (some (.obj (Token.members token))) ∧ MovedSince fourEpochs 0 0 3 token := by
  let start : Start "t" := .holding "t" (.ofRefresh "old")
  have hends : ((runEpochs "t" .ofRepr start.sys fourEpochs).map fun endings =>
      endings.map fun s => (s.saves 0, s.disk.durableDir, s.disk.queue.length,
        (s.loads 0).result.isSome)) =
      some [(.returned 1, true, 2, false), (.idle, true, 0, false), (.returned 2, true, 2, false),
        (.idle, true, 0, true)] := by
    decide +kernel
  obtain ⟨endings, hrun, heq⟩ := Option.map_eq_some_iff.mp hends
  obtain ⟨first, rest, rfl, hfirst, heq⟩ := List.map_eq_cons_iff.mp heq
  obtain ⟨second, rest, rfl, hsecond, heq⟩ := List.map_eq_cons_iff.mp heq
  obtain ⟨third, rest, rfl, -, heq⟩ := List.map_eq_cons_iff.mp heq
  obtain ⟨last, rest, rfl, hlast, -⟩ := List.map_eq_cons_iff.mp heq
  simp only [Prod.mk.injEq] at hfirst hsecond hlast
  obtain ⟨hret, -⟩ := hfirst
  obtain ⟨-, hdir, hqueue, -⟩ := hsecond
  obtain ⟨-, -, -, hload⟩ := hlast
  obtain ⟨result, hdone⟩ : ∃ result, last.loads 0 = .done result := by
    generalize last.loads 0 = pc at hload
    cases pc with
    | done result => exact ⟨result, rfl⟩
    | _ => cases hload
  have hkept : Kept "t" .ofRepr fourEpochs (first :: second :: third :: last :: rest) 0 3 1 := by
    intro i epoch ending _ hi hepoch hending hloss hrestarts
    rcases i with _ | _ | _ | i
    · obtain rfl := Option.some.inj hepoch
      cases hloss
    · obtain rfl := Option.some.inj hending
      refine ⟨hdir, ?_⟩
      rw [List.eq_nil_of_length_eq_zero hqueue]
      exact fun op hop => absurd hop List.not_mem_nil
    · -- the second power loss is not the next one
      have hsecond := hrestarts 1 _ (Nat.zero_le 1) (by decide) rfl
      cases hsecond
    · omega
  obtain ⟨token, hresult, hsince⟩ := (epochs_consistent "t" .ofRepr start fourEpochs _ hrun).2
    0 3 0 0 1 first last result rfl hret hkept (by decide) rfl hdone
  exact ⟨_, last, result, token, hrun, rfl, hdone, hresult, hsince⟩

end KgaGateway
