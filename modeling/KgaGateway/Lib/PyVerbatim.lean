import KgaGateway.Lib.PyJson
import Mathlib.Data.List.Nodup
import Mathlib.Data.List.Perm.Subperm
import Mathlib.Data.Set.List

/-!
# What JSON keeps as it is

`jsonize v` is equal to `v` for the values without a tuple, without a key that
is not a string, without a surrogate pair and without a `nan` object of their
own (`Verbatim`), and for no others (`eq_jsonize_iff`).

For a dict this needs an argument. The keys that are loaded are strings, so if
the dicts are equal all keys of the first were strings, and the loaded ones are
the same strings in some order. Joining pairs shortens a string that has one,
so none had.

The values that documents load to are verbatim.
-/

namespace KgaGateway

/-! ## Looking up -/

section Lookup

variable {numEq : Int → PyFloat → Bool}

@[simp] theorem PyAtom.str_eq_str (s t : PyStr) :
    PyAtom.eq numEq (.str s) (.str t) = (s == t) := rfl

/-- Only a string is equal to a string. -/
theorem PyAtom.eq_str_iff {a : PyAtom} {s : PyStr} : a.eq numEq (.str s) = true ↔ a = .str s := by
  cases a with
  | str t => simp
  | none => simp [PyAtom.eq, asInt]
  | bool b => simp [PyAtom.eq, asInt]
  | int n => simp [PyAtom.eq, asInt]
  | float x i => simp [PyAtom.eq, asInt]
  | other i => simp [PyAtom.eq, asInt]

theorem PyVal.lookup_str {m : List (PyAtom × PyVal)} {s : PyStr} {v : PyVal}
    (h : lookup numEq m (.str s) = some v) : (PyAtom.str s, v) ∈ m := by
  obtain ⟨⟨k, w⟩, hfind, rfl⟩ := Option.map_eq_some_iff.mp h
  have hk : k.eq numEq (.str s) = true :=
    List.find?_some (p := fun p : PyAtom × PyVal => p.1.eq numEq (.str s)) hfind
  obtain rfl := PyAtom.eq_str_iff.mp hk
  exact List.mem_of_find?_eq_some hfind

/-- A string key of a dict is found with its own value. -/
theorem PyVal.lookup_of_mem {m : List (PyAtom × PyVal)} {s : PyStr} {v : PyVal}
    (hkeys : (m.map Prod.fst).Pairwise fun a b => a.eq numEq b = false)
    (hmem : (PyAtom.str s, v) ∈ m) : lookup numEq m (.str s) = some v := by
  induction m with
  | nil => cases hmem
  | cons p m ih =>
    obtain ⟨hp, hm⟩ := List.pairwise_cons.mp hkeys
    rcases List.mem_cons.mp hmem with rfl | hmem
    · simp [lookup]
    · have hne := hp (.str s) (List.mem_map_of_mem (f := Prod.fst) hmem)
      have htail := ih hm hmem
      rw [lookup] at htail ⊢
      rw [List.find?_cons_of_neg (by simp [hne]), htail]

theorem PyVal.eq_members_iff {m m' : List (PyAtom × PyVal)} : eq.members numEq m m' = true ↔
    ∀ p ∈ m, ∃ v, lookup numEq m' p.1 = some v ∧ p.2.eq numEq v = true := by
  induction m with
  | nil => simp [eq.members]
  | cons p m ih =>
    rw [eq.members, Bool.and_eq_true, ih, List.forall_mem_cons]
    refine and_congr_left fun _ => ?_
    cases lookup numEq m' p.1 <;> simp

end Lookup

namespace PyJson

/-! ## Dicts with distinct keys -/

theorem setItem_of_not_mem {d : List (PyStr × PyVal)} {key : PyStr}
    (h : key ∉ d.map Prod.fst) (value : PyVal) : setItem d key value = d ++ [(key, value)] := by
  induction d with
  | nil => rfl
  | cons p d ih =>
    rw [List.map_cons, List.mem_cons, not_or] at h
    rw [setItem, if_neg (Ne.symm h.1), ih h.2]
    rfl

theorem keys_setItem_of_mem {d : List (PyStr × PyVal)} {key : PyStr} (h : key ∈ d.map Prod.fst)
    (value : PyVal) : (setItem d key value).map Prod.fst = d.map Prod.fst := by
  induction d with
  | nil => cases h
  | cons p d ih =>
    by_cases hp : p.1 = key
    · rw [setItem, if_pos hp, List.map_cons, List.map_cons, hp]
    · rw [List.map_cons, List.mem_cons] at h
      rw [setItem, if_neg hp, List.map_cons, List.map_cons,
        ih (h.resolve_left (Ne.symm hp))]

/-- The entries are added one by one; if the keys are distinct they are all
there at the end, and otherwise the dict is shorter than the list. -/
theorem foldl_setItem_cases (entries : List (PyStr × PyVal)) : ∀ d : List (PyStr × PyVal),
    (d.map Prod.fst).Nodup →
      (((d ++ entries).map Prod.fst).Nodup ∧
        entries.foldl (fun d m => setItem d m.1 m.2) d = d ++ entries) ∨
      (¬ ((d ++ entries).map Prod.fst).Nodup ∧
        (entries.foldl (fun d m => setItem d m.1 m.2) d).length < d.length + entries.length) := by
  induction entries with
  | nil =>
    intro d hd
    exact Or.inl ⟨by rwa [List.append_nil], (List.append_nil d).symm⟩
  | cons p entries ih =>
    intro d hd
    rw [List.foldl_cons, List.length_cons]
    by_cases hp : p.1 ∈ d.map Prod.fst
    · have hkeys := keys_setItem_of_mem hp p.2
      have hlen : (setItem d p.1 p.2).length = d.length := by
        simpa using congrArg List.length hkeys
      refine Or.inr ⟨fun hnodup => ?_, ?_⟩
      · rw [List.map_append, List.map_cons] at hnodup
        exact List.disjoint_of_nodup_append hnodup hp List.mem_cons_self
      · rcases ih (setItem d p.1 p.2) (by rwa [hkeys]) with ⟨-, heq⟩ | ⟨-, hlt⟩
        · rw [heq, List.length_append]
          omega
        · omega
    · have hnodup : ((d ++ [p]).map Prod.fst).Nodup := by
        rw [List.map_append, List.map_singleton, ← List.concat_eq_append]
        exact List.Nodup.concat hp hd
      have happend : d ++ p :: entries = d ++ [p] ++ entries := by
        rw [List.append_assoc, List.singleton_append]
      rw [show setItem d p.1 p.2 = d ++ [p] from setItem_of_not_mem hp p.2, happend]
      rcases ih (d ++ [p]) hnodup with ⟨hall, heq⟩ | ⟨hall, hlt⟩
      · exact Or.inl ⟨hall, heq⟩
      · refine Or.inr ⟨hall, ?_⟩
        simp only [List.length_append, List.length_singleton] at hlt
        omega

theorem dictOf_cases (entries : List (PyStr × PyVal)) :
    ((entries.map Prod.fst).Nodup ∧ dictOf entries = entries) ∨
      (¬ (entries.map Prod.fst).Nodup ∧ (dictOf entries).length < entries.length) := by
  have h := foldl_setItem_cases entries [] List.nodup_nil
  rwa [List.nil_append, List.length_nil, Nat.zero_add] at h

/-! ## Keys -/

/-- Joining the pairs of some strings makes them shorter in all, or there are
none. -/
theorem length_flatten_joinPairs (l : List PyStr) :
    (l.map PyStr.joinPairs).flatten.length ≤ l.flatten.length ∧
      ((l.map PyStr.joinPairs).flatten.length = l.flatten.length → ∀ s ∈ l, ¬ s.HasPair) := by
  induction l with
  | nil => exact ⟨le_rfl, fun _ s hs => by cases hs⟩
  | cons s l ih =>
    obtain ⟨hle, hall⟩ := ih
    simp only [List.map_cons, List.flatten_cons, List.length_append, List.forall_mem_cons]
    rcases PyStr.joinPairs_cases s with ⟨hno, heq⟩ | ⟨-, hlt⟩
    · rw [heq]
      exact ⟨by omega, fun h => ⟨hno, hall (by omega)⟩⟩
    · exact ⟨by omega, fun h => by omega⟩

/-- If joining the pairs only reorders some strings, none has a pair. -/
theorem not_hasPair_of_perm {l : List PyStr} (h : (l.map PyStr.joinPairs).Perm l) :
    ∀ s ∈ l, ¬ s.HasPair :=
  (length_flatten_joinPairs l).2 h.flatten.length_eq

/-- The key a dict has after it was dumped and loaded. -/
def loadedKey (k : PyAtom) : PyStr := PyStr.joinPairs ((keyStr k).getD [])

/-- A key that is a string without a surrogate pair. -/
def KeepsKey : PyAtom → Prop
  | .str s => ¬ s.HasPair
  | _ => False

/-- Such a key is the same after. -/
theorem str_loadedKey {k : PyAtom} (h : KeepsKey k) : PyAtom.str (loadedKey k) = k := by
  cases k with
  | str s => exact congrArg PyAtom.str (PyStr.joinPairs_eq_self_iff.mpr h)
  | none => exact h.elim
  | bool b => exact h.elim
  | int n => exact h.elim
  | float x i => exact h.elim
  | other i => exact h.elim

/-- If the loaded keys are different and all among the keys of the dict, the
dict had no others to begin with. -/
theorem keepsKey_of_mem {keys : List PyAtom} (hnodup : (keys.map loadedKey).Nodup)
    (hmem : ∀ s ∈ keys.map loadedKey, PyAtom.str s ∈ keys) : ∀ k ∈ keys, KeepsKey k := by
  have hinj : Function.Injective PyAtom.str := fun s t h => PyAtom.str.inj h
  have hsubset : (keys.map loadedKey).map PyAtom.str ⊆ keys := by
    intro k hk
    obtain ⟨s, hs, rfl⟩ := List.mem_map.mp hk
    exact hmem s hs
  have hperm : ((keys.map loadedKey).map PyAtom.str).Perm keys := by
    apply ((List.Nodup.map hinj hnodup).subperm hsubset).perm_of_length_le
    rw [List.length_map, List.length_map]
  -- so every key is a string, and the loaded keys are these strings in some order
  obtain ⟨l, rfl⟩ : keys ∈ Set.range (List.map PyAtom.str) := by
    rw [Set.range_list_map]
    intro k hk
    obtain ⟨s, -, hs⟩ := List.mem_map.mp (hperm.mem_iff.mpr hk)
    exact ⟨s, hs⟩
  have hloaded : (l.map PyAtom.str).map loadedKey = l.map PyStr.joinPairs := by
    rw [List.map_map]
    rfl
  rw [hloaded] at hperm
  have hall := not_hasPair_of_perm ((List.map_perm_map_iff hinj).mp hperm)
  intro k hk
  obtain ⟨s, hs, rfl⟩ := List.mem_map.mp hk
  exact hall s hs

/-! ## Values -/

/-- An atom that JSON keeps: no string with a surrogate pair, and no `nan` but
the one the JSON module makes. -/
def KeepsAtom : PyAtom → Prop
  | .float x i => x.text = "nan" → i = 0
  | .str s => ¬ s.HasPair
  | _ => True

/-- A value without a tuple, all of whose keys and atoms JSON keeps. -/
def Verbatim : PyVal → Prop
  | .atom a => KeepsAtom a
  | .list l => items l
  | .tuple _ => False
  | .dict m => members m
where
  /-- the items of a list -/
  items : List PyVal → Prop
    | [] => True
    | v :: l => Verbatim v ∧ items l
  /-- the entries of a dict -/
  members : List (PyAtom × PyVal) → Prop
    | [] => True
    | (k, v) :: m => KeepsKey k ∧ Verbatim v ∧ members m

theorem verbatim_members_iff {m : List (PyAtom × PyVal)} :
    Verbatim.members m ↔ ∀ p ∈ m, KeepsKey p.1 ∧ Verbatim p.2 := by
  induction m with
  | nil => simp [Verbatim.members]
  | cons p m ih => rw [Verbatim.members, ih, List.forall_mem_cons, and_assoc]

theorem jsonize_members (m : List (PyAtom × PyVal)) :
    jsonize.members m = m.map fun p => (loadedKey p.1, jsonize p.2) := by
  induction m with
  | nil => rfl
  | cons p m ih => rw [jsonize.members, ih, List.map_cons, loadedKey]

variable {numEq : Int → PyFloat → Bool}

theorem eq_jsonizeAtom_iff {a : PyAtom} (h : (atomText a).isSome = true) :
    (jsonizeAtom a).eq numEq a = true ↔ KeepsAtom a := by
  cases a with
  | none => simp [jsonizeAtom, PyAtom.eq, KeepsAtom]
  | bool b => simp [jsonizeAtom, PyAtom.eq, PyAtom.asInt, KeepsAtom]
  | int n => simp [jsonizeAtom, PyAtom.eq, PyAtom.asInt, KeepsAtom]
  | float x i =>
    by_cases hx : x.text = "nan"
    · simp [jsonizeAtom, PyAtom.eq, PyFloat.same, KeepsAtom, hx, @eq_comm ℕ 0]
    · simp [jsonizeAtom, PyAtom.eq, PyFloat.same, KeepsAtom, hx]
  | str s => simp [jsonizeAtom, KeepsAtom, PyStr.joinPairs_eq_self_iff]
  | other i => cases h

/-- A dict, once its values are known to be kept or not. -/
theorem eq_jsonize_dict_iff {m : List (PyAtom × PyVal)}
    (hkeys : (m.map Prod.fst).Pairwise fun a b => a.eq numEq b = false)
    (hvalues : ∀ p ∈ m, (jsonize p.2).eq numEq p.2 = true ↔ Verbatim p.2) :
    (jsonize (.dict m)).eq numEq (.dict m) = true ↔ Verbatim (.dict m) := by
  have hentries : (jsonize.members m).map Prod.fst = (m.map Prod.fst).map loadedKey := by
    rw [jsonize_members, List.map_map, List.map_map]
    rfl
  have hlength : (jsonize.members m).length = m.length := by
    rw [jsonize_members, List.length_map]
  rw [Verbatim, verbatim_members_iff, jsonize, strDict, PyVal.eq, Bool.and_eq_true, beq_iff_eq,
    List.length_map, PyVal.eq_members_iff]
  constructor
  · rintro ⟨hlen, hall⟩
    obtain ⟨hnodup, hdict⟩ :=
      (dictOf_cases (jsonize.members m)).resolve_right fun h => by omega
    rw [hdict, List.forall_mem_map, jsonize_members, List.forall_mem_map] at hall
    have hkept : ∀ k ∈ m.map Prod.fst, KeepsKey k := by
      apply keepsKey_of_mem (hentries ▸ hnodup)
      intro s hs
      rw [List.map_map, List.mem_map] at hs
      obtain ⟨p, hp, rfl⟩ := hs
      obtain ⟨v, hv, -⟩ := hall p hp
      exact List.mem_map_of_mem (f := Prod.fst) (PyVal.lookup_str hv)
    intro p hp
    have hk := hkept p.1 (List.mem_map_of_mem hp)
    obtain ⟨v, hv, heq⟩ := hall p hp
    rw [PyVal.lookup_of_mem hkeys (v := p.2) (by rwa [str_loadedKey hk])] at hv
    obtain rfl := Option.some.inj hv
    exact ⟨hk, (hvalues p hp).mp heq⟩
  · intro hall
    have hnodup : ((jsonize.members m).map Prod.fst).Nodup := by
      rw [hentries, List.Nodup, List.pairwise_map]
      refine hkeys.imp_of_mem fun ha hb hne heq => ?_
      obtain ⟨p, hp, rfl⟩ := List.mem_map.mp ha
      obtain ⟨q, hq, rfl⟩ := List.mem_map.mp hb
      rw [← str_loadedKey (hall p hp).1, ← str_loadedKey (hall q hq).1, heq,
        PyAtom.str_eq_str, beq_self_eq_true] at hne
      cases hne
    have hdict := ((dictOf_cases (jsonize.members m)).resolve_right fun h => h.1 hnodup).2
    rw [hdict]
    refine ⟨hlength, ?_⟩
    rw [List.forall_mem_map, jsonize_members, List.forall_mem_map]
    intro p hp
    obtain ⟨hk, hv⟩ := hall p hp
    exact ⟨p.2, PyVal.lookup_of_mem hkeys (by rwa [str_loadedKey hk]), (hvalues p hp).mpr hv⟩

mutual

/-- **What JSON keeps**: a value with a text is equal to what it becomes exactly
if it is verbatim. By recursion on the value. -/
theorem eq_jsonize_iff : ∀ v : PyVal, encodable v = true → v.DistinctKeys numEq →
    ((jsonize v).eq numEq v = true ↔ Verbatim v)
  | .atom _, hv, _ => eq_jsonizeAtom_iff hv
  | .list l, hv, hd => eq_jsonize_items_iff l hv hd
  | .tuple _, _, _ => iff_of_false (by rw [jsonize, PyVal.eq] <;> simp) id
  | .dict m, hv, hd => eq_jsonize_dict_iff hd.1 (eq_jsonize_members_iff m hv hd.2)

theorem eq_jsonize_items_iff : ∀ l : List PyVal, encodable.items l = true →
    PyVal.DistinctKeys.items numEq l →
      (PyVal.eq.items numEq (jsonize.items l) l = true ↔ Verbatim.items l)
  | [], _, _ => iff_of_true rfl trivial
  | v :: l, hl, hd => by
    obtain ⟨hv, hrest⟩ := (Bool.and_eq_true _ _).mp hl
    rw [jsonize.items, PyVal.eq.items, Bool.and_eq_true, Verbatim.items,
      eq_jsonize_iff v hv hd.1, eq_jsonize_items_iff l hrest hd.2]

theorem eq_jsonize_members_iff : ∀ m : List (PyAtom × PyVal), encodable.members m = true →
    PyVal.DistinctKeys.members numEq m →
      ∀ p ∈ m, (jsonize p.2).eq numEq p.2 = true ↔ Verbatim p.2
  | [], _, _, _, hp => by cases hp
  | (k, v) :: m, hm, hd, p, hp => by
    obtain ⟨hkv, hrest⟩ := (Bool.and_eq_true _ _).mp hm
    rcases List.mem_cons.mp hp with rfl | hp
    · exact eq_jsonize_iff v ((Bool.and_eq_true _ _).mp hkv).2 hd.1
    · exact eq_jsonize_members_iff m hrest hd.2 p hp

end

/-! ## Documents -/

theorem escapePoint_ofChar (c : Char) : escapePoint (PyStr.ofChar c) = JsonText.escapeChar c := by
  rw [escapePoint, PyStr.isHigh_ofChar, PyStr.isLow_ofChar, PyStr.val_ofChar, Char.ofNat_toNat]
  rfl

theorem dumpStr_ofText (s : String) : dumpStr (PyStr.ofText s.toList) = JsonText.dumpStr s := by
  rw [dumpStr, JsonText.dumpStr, PyStr.ofText, List.flatMap_map]
  simp only [escapePoint_ofChar]

theorem not_hasPair_ofText (l : List Char) : ¬ (PyStr.ofText l).HasPair :=
  PyStr.joinPairs_eq_self_iff.mp (PyStr.joinPairs_ofText l)

mutual

/-- A document has the text it always had, and JSON keeps it. By recursion on
the document. -/
theorem ofJson_spec : ∀ j : Json, encodable (ofJson j) = true ∧
    text (ofJson j) = JsonText.dump j ∧ Verbatim (ofJson j)
  | .null => ⟨rfl, rfl, trivial⟩
  | .bool true => ⟨rfl, rfl, trivial⟩
  | .bool false => ⟨rfl, rfl, trivial⟩
  | .int _ => ⟨rfl, rfl, trivial⟩
  | .float _ => ⟨rfl, rfl, fun _ => rfl⟩
  | .str s => ⟨rfl, dumpStr_ofText s, not_hasPair_ofText s.toList⟩
  | .arr l => by
    obtain ⟨hencodable, htext, hverbatim⟩ := ofJson_items_spec l
    exact ⟨hencodable, by rw [ofJson, text, htext, JsonText.dump], hverbatim⟩
  | .obj m => by
    obtain ⟨hencodable, htext, hverbatim⟩ := ofJson_members_spec m
    exact ⟨hencodable, by rw [ofJson, text, htext, JsonText.dump], hverbatim⟩

theorem ofJson_items_spec : ∀ l : List Json, encodable.items (ofJson.items l) = true ∧
    text.items (ofJson.items l) = JsonText.dump.items l ∧ Verbatim.items (ofJson.items l)
  | [] => ⟨rfl, rfl, trivial⟩
  | j :: l => by
    obtain ⟨hj, htext, hverbatim⟩ := ofJson_spec j
    obtain ⟨hl, htexts, hverbatims⟩ := ofJson_items_spec l
    refine ⟨by rw [ofJson.items, encodable.items, hj, hl]; rfl, ?_, hverbatim, hverbatims⟩
    cases l with
    | nil => exact htext
    | cons j' l =>
      rw [JsonText.dump.items, ← htext, ← htexts]
      · rfl
      · exact List.cons_ne_nil _ _

theorem ofJson_members_spec : ∀ m : List (String × Json),
    encodable.members (ofJson.members m) = true ∧
      text.members (ofJson.members m) = JsonText.dump.members m ∧
        Verbatim.members (ofJson.members m)
  | [] => ⟨rfl, rfl, trivial⟩
  | (k, j) :: m => by
    obtain ⟨hj, htext, hverbatim⟩ := ofJson_spec j
    obtain ⟨hm, htexts, hverbatims⟩ := ofJson_members_spec m
    refine ⟨by rw [ofJson.members, encodable.members, hj, hm]; rfl, ?_,
      not_hasPair_ofText k.toList, hverbatim, hverbatims⟩
    cases m with
    | nil =>
      rw [JsonText.dump.members, ← htext, ← dumpStr_ofText]
      rfl
    | cons m' m =>
      rw [JsonText.dump.members, ← htext, ← htexts, ← dumpStr_ofText]
      · rfl
      · exact List.cons_ne_nil _ _

end

theorem ofText_injective : Function.Injective PyStr.ofText := by
  have hchar : Function.Injective PyStr.ofChar := by
    intro c d h
    have hval := congrArg Fin.val h
    rw [PyStr.val_ofChar, PyStr.val_ofChar] at hval
    exact Char.toNat_inj.mp hval
  exact List.map_injective_iff.mpr hchar

theorem ofJson_members (m : List (String × Json)) : ofJson.members m =
    m.map fun p => (PyAtom.str (PyStr.ofText p.1.toList), ofJson p.2) := by
  induction m with
  | nil => rfl
  | cons p m ih => rw [ofJson.members, ih, List.map_cons]

theorem pairwise_ofJson {m : List (String × Json)} (h : (m.map Prod.fst).Nodup) :
    ((ofJson.members m).map Prod.fst).Pairwise fun a b => a.eq numEq b = false := by
  rw [ofJson_members, List.map_map, List.pairwise_map]
  refine (List.pairwise_map.mp h).imp fun hne => ?_
  dsimp only [Function.comp_apply]
  rw [PyAtom.str_eq_str, beq_eq_false_iff_ne]
  exact fun heq => hne (String.toList_injective (ofText_injective heq))

mutual

theorem distinctKeys_ofJson : ∀ j : Json, j.DistinctKeys → (ofJson j).DistinctKeys numEq
  | .null, _ => trivial
  | .bool _, _ => trivial
  | .int _, _ => trivial
  | .float _, _ => trivial
  | .str _, _ => trivial
  | .arr l, h => distinctKeys_ofJson_items l h
  | .obj m, h => ⟨pairwise_ofJson h.1, distinctKeys_ofJson_members m h.2⟩

theorem distinctKeys_ofJson_items : ∀ l : List Json, Json.DistinctKeys.items l →
    PyVal.DistinctKeys.items numEq (ofJson.items l)
  | [], _ => trivial
  | j :: l, h => ⟨distinctKeys_ofJson j h.1, distinctKeys_ofJson_items l h.2⟩

theorem distinctKeys_ofJson_members : ∀ m : List (String × Json), Json.DistinctKeys.members m →
    PyVal.DistinctKeys.members numEq (ofJson.members m)
  | [], _ => trivial
  | (_, j) :: m, h => ⟨distinctKeys_ofJson j h.1, distinctKeys_ofJson_members m h.2⟩

end

/-- An object, once its values are known to stay. -/
theorem jsonize_obj {m : List (String × Json)} (h : (m.map Prod.fst).Nodup)
    (hvalues : ∀ p ∈ m, jsonize (ofJson p.2) = ofJson p.2) :
    jsonize (ofJson (.obj m)) = ofJson (.obj m) := by
  have hentries : jsonize.members (ofJson.members m) =
      m.map fun p => (PyStr.ofText p.1.toList, ofJson p.2) := by
    rw [jsonize_members, ofJson_members, List.map_map]
    refine List.map_congr_left fun p hp => ?_
    exact Prod.ext (PyStr.joinPairs_ofText p.1.toList) (hvalues p hp)
  have hnodup : ((jsonize.members (ofJson.members m)).map Prod.fst).Nodup := by
    have hinj : Function.Injective fun k : String => PyStr.ofText k.toList :=
      fun _ _ heq => String.toList_injective (ofText_injective heq)
    have hkeys := List.Nodup.map hinj h
    rw [List.map_map] at hkeys
    rwa [hentries, List.map_map]
  rw [ofJson, jsonize, ((dictOf_cases _).resolve_right fun h => h.1 hnodup).2, hentries, strDict,
    List.map_map, ofJson_members]
  rfl

mutual

/-- A document stays the same. By recursion on the document. -/
theorem jsonize_ofJson : ∀ j : Json, j.DistinctKeys → jsonize (ofJson j) = ofJson j
  | .null, _ => rfl
  | .bool _, _ => rfl
  | .int _, _ => rfl
  | .float _, _ => rfl
  | .str s, _ => congrArg (fun s => PyVal.atom (.str s)) (PyStr.joinPairs_ofText s.toList)
  | .arr l, h => congrArg PyVal.list (jsonize_ofJson_items l h)
  | .obj m, h => jsonize_obj h.1 (jsonize_ofJson_members m h.2)

theorem jsonize_ofJson_items : ∀ l : List Json, Json.DistinctKeys.items l →
    jsonize.items (ofJson.items l) = ofJson.items l
  | [], _ => rfl
  | j :: l, h => congrArg₂ List.cons (jsonize_ofJson j h.1) (jsonize_ofJson_items l h.2)

theorem jsonize_ofJson_members : ∀ m : List (String × Json), Json.DistinctKeys.members m →
    ∀ p ∈ m, jsonize (ofJson p.2) = ofJson p.2
  | [], _, _, hp => by cases hp
  | (k, j) :: m, h, p, hp => by
    rcases List.mem_cons.mp hp with rfl | hp
    · exact jsonize_ofJson j h.1
    · exact jsonize_ofJson_members m h.2 p hp

end

end PyJson

end KgaGateway
