import KgaGateway.Lib.Model

/-!
# What a response model makes of a value

A value is rendered by validating it and serialising the result, with nulls.
What comes out is a canonical form (`canonical_of_render`): every declared field
is there once, under its alias, with a value of its kind, and rendered again it
stays as it is. Writing null for infinity and `nan` keeps it one. An object is
rendered exactly when every entry a field is taken from has a value of that
field (`renderOne_isSome_iff`).

The validator reads numbers out of values in its own way; all that is asked of
it is that a float is read as itself.
-/

namespace KgaGateway

namespace Model

/-! ## Values of a field -/

/-- A value of the field, as it is serialised. -/
def Field.Fits (field : Field) (v : Json) : Prop :=
  v = .null ∧ field.required = false ∨
    match field.kind with
    | .text => v.isStr = true
    | .number => ∃ x, v = .float x

section Field

variable {numberOf : Json → Option PyFloat} {field : Field} {fields : List Field}
  {body : List (String × Json)}

/-- What a field takes is a value of it. -/
theorem fits_of_coerce {given v : Json} (h : field.coerce numberOf given = some v) :
    field.Fits v := by
  unfold Field.coerce at h
  split at h
  · split at h
    · cases h
    · rename_i hoptional
      exact Or.inl ⟨(Option.some.inj h).symm, Bool.eq_false_iff.mpr hoptional⟩
  · right
    cases hkind : field.kind with
    | text =>
      simp only [hkind] at h
      split at h
      · rename_i hstr
        exact Option.some.inj h ▸ hstr
      · cases h
    | number =>
      simp only [hkind] at h
      obtain ⟨x, -, rfl⟩ := Option.map_eq_some_iff.mp h
      exact ⟨x, rfl⟩

/-- What a validated field holds is a value of it. -/
theorem fits_of_validate {v : Json} (h : field.validate numberOf body = .ok v) : field.Fits v := by
  unfold Field.validate at h
  split at h
  · split at h
    · cases h
    · rename_i hoptional
      exact Or.inl ⟨(Except.ok.inj h).symm, Bool.eq_false_iff.mpr hoptional⟩
  · split at h
    · cases h
    · rename_i hcoerce
      exact Except.ok.inj h ▸ fits_of_coerce hcoerce

theorem coerce_of_isStr (hkind : field.kind = .text) {v : Json} (h : v.isStr = true) :
    field.coerce numberOf v = some v := by
  cases v with
  | str s => simp [Field.coerce, hkind, Json.isStr]
  | _ => cases h

/-- A value of a text field that is not null is a text. -/
theorem isStr_of_fits (hkind : field.kind = .text) {v : Json} (hne : v ≠ .null)
    (h : field.Fits v) : v.isStr = true := by
  rcases h with ⟨rfl, -⟩ | h
  · exact absurd rfl hne
  · simpa only [hkind] using h

/-- A field takes its own values as they are. -/
theorem coerce_of_fits (hfloat : ∀ x, numberOf (.float x) = some x) {v : Json}
    (h : field.Fits v) : field.coerce numberOf v = some v := by
  rcases h with ⟨rfl, hoptional⟩ | h
  · simp [Field.coerce, hoptional]
  · cases hkind : field.kind with
    | text =>
      simp only [hkind] at h
      exact coerce_of_isStr hkind h
    | number =>
      simp only [hkind] at h
      obtain ⟨x, rfl⟩ := h
      simp [Field.coerce, hkind, hfloat]

/-- A value of a field that may be null stays one when it is written. -/
theorem Field.Fits.written (hoptional : field.required = false) {v : Json} (h : field.Fits v) :
    field.Fits v.written := by
  rcases h with ⟨rfl, -⟩ | h
  · exact Or.inl ⟨rfl, hoptional⟩
  · cases hkind : field.kind with
    | text =>
      simp only [hkind] at h
      refine Or.inr ?_
      simp only [hkind]
      cases v with
      | str s => rfl
      | _ => cases h
    | number =>
      simp only [hkind] at h
      obtain ⟨x, rfl⟩ := h
      rw [Json.written]
      split
      · refine Or.inr ?_
        simp only [hkind]
        exact ⟨x, rfl⟩
      · exact Or.inl ⟨rfl, hoptional⟩

/-- Validation succeeds when no entry a field is taken from is refused, and no
required one is missing. -/
theorem validate_isOk_iff :
    (∃ v, field.validate numberOf body = .ok v) ↔
      (field.entry body = none → field.required = false) ∧
        ∀ key given, field.entry body = some (key, given) →
          ∃ v, field.coerce numberOf given = some v := by
  unfold Field.validate
  cases hentry : field.entry body with
  | none =>
    cases field.required <;> simp
  | some m =>
    obtain ⟨key, given⟩ := m
    cases hcoerce : field.coerce numberOf given with
    | none => simp [hcoerce]
    | some v => simp [hcoerce]

/-- Only objects validate. -/
theorem exists_obj_of_validate {given : Option Json} {m : Instance}
    (h : validate numberOf fields given = .ok m) : ∃ body, given = some (.obj body) := by
  cases given with
  | none => cases h
  | some value =>
    cases value with
    | obj body => exact ⟨body, rfl⟩
    | _ => cases h

theorem fieldErrors_eq_nil_iff :
    fieldErrors numberOf fields body = [] ↔
      ∀ field ∈ fields, ∃ v, field.validate numberOf body = .ok v := by
  rw [fieldErrors, List.filterMap_eq_nil_iff]
  refine forall₂_congr fun field _ => ?_
  cases field.validate numberOf body <;> simp

end Field

/-! ## What is rendered -/

/-- Every declared field is there once, under its alias, with a value of it. -/
def ConformsOne (fields : List Field) (j : Json) : Prop :=
  ∃ members, j = .obj members ∧ ∀ field ∈ fields, ∃ v,
    members.filter (fun m => m.1 == field.wireName) = [(field.wireName, v)] ∧ field.Fits v

/-- `Field.Fits`, computed. -/
def Field.fits (field : Field) : Json → Bool
  | .null => !field.required
  | .str _ => field.kind == .text
  | .float _ => field.kind == .number
  | _ => false

/-- `ConformsOne`, computed. -/
def conformsOne (fields : List Field) : Json → Bool
  | .obj members => fields.all fun field =>
    match members.filter fun m => m.1 == field.wireName with
    | [m] => field.fits m.2
    | _ => false
  | _ => false

theorem fits_iff {field : Field} {v : Json} : field.Fits v ↔ field.fits v = true := by
  unfold Field.Fits
  cases hkind : field.kind <;> cases v <;> simp [Field.fits, hkind, Json.isStr]

theorem conformsOne_iff {fields : List Field} {j : Json} :
    ConformsOne fields j ↔ conformsOne fields j = true := by
  constructor
  · rintro ⟨members, rfl, hall⟩
    refine List.all_eq_true.mpr fun field hfield => ?_
    obtain ⟨v, hfilter, hfits⟩ := hall field hfield
    simpa only [hfilter] using fits_iff.mp hfits
  · intro h
    cases j with
    | obj members =>
      refine ⟨members, rfl, fun field hfield => ?_⟩
      have hfits := List.all_eq_true.mp h field hfield
      split at hfits
      · rename_i m hfilter
        have hmem : m ∈ members.filter fun m => m.1 == field.wireName := by simp [hfilter]
        have hkey : m.1 = field.wireName := by simpa using (List.mem_filter.mp hmem).2
        exact ⟨m.2, hkey ▸ hfilter, fits_iff.mpr hfits⟩
      · cases hfits
    | _ => cases h

instance decidableConformsOne (fields : List Field) (j : Json) : Decidable (ConformsOne fields j) :=
  decidable_of_iff _ conformsOne_iff.symm

/-- The value conforms to the model. -/
def Shape.Conforms : Shape → Json → Prop
  | .one fields, j => ConformsOne fields j
  | .many fields, j => ∃ values, j = .arr values ∧ ∀ v ∈ values, ConformsOne fields v

/-- The declared fields. -/
def Shape.fields : Shape → List Field
  | .one fields => fields
  | .many fields => fields

/-- The entries a validated object is serialised to. -/
def serialised (numberOf : Json → Option PyFloat) (fields : List Field)
    (body : List (String × Json)) : List (String × Json) :=
  (fieldValues numberOf fields body).map (fun p => (p.1.wireName, p.2)) ++ extras fields body

section Render

variable {numberOf : Json → Option PyFloat} {fields : List Field}
  {body : List (String × Json)}

/-- An object is rendered if every field validates. -/
theorem renderOne_obj (h : ∀ field ∈ fields, ∃ v, field.validate numberOf body = .ok v) :
    renderOne numberOf fields (.obj body) = some (.obj (serialised numberOf fields body)) := by
  simp only [renderOne, validate]
  rw [fieldErrors_eq_nil_iff.mpr h]
  rfl

/-- What is rendered is an object. -/
theorem renderOne_eq_some {value j : Json} (h : renderOne numberOf fields value = some j) :
    ∃ body, value = .obj body ∧ (∀ field ∈ fields, ∃ v, field.validate numberOf body = .ok v) ∧
      j = .obj (serialised numberOf fields body) := by
  rw [renderOne] at h
  split at h
  · rename_i m hvalidate
    cases value with
    | obj body =>
      obtain ⟨rfl, hall⟩ := validate_eq_ok hvalidate
      exact ⟨body, rfl, hall, (Option.some.inj h).symm⟩
    | _ => simp [validate] at hvalidate
  · cases h

/-- A field's entry among those that are serialised. -/
theorem filter_serialised (hnodup : (fields.map Field.wireName).Nodup) {field : Field}
    (hfield : field ∈ fields) {v : Json} (hv : field.validate numberOf body = .ok v) :
    (serialised numberOf fields body).filter (fun m => m.1 == field.wireName) =
      [(field.wireName, v)] := by
  have hvalues : ((fieldValues numberOf fields body).map fun p => (p.1.wireName, p.2)).filter
      (fun m => m.1 == field.wireName) = [(field.wireName, v)] := by
    rw [List.filter_map]
    exact congrArg _ (filter_fieldValues hnodup hfield hv)
  have hextras : (extras fields body).filter (fun m => m.1 == field.wireName) = [] := by
    rw [List.filter_eq_nil_iff]
    intro m hm hname
    exact wireName_not_mem_extras hfield m hm (beq_iff_eq.mp hname)
  rw [serialised, List.filter_append, hvalues, hextras, List.append_nil]

/-! ## Canonical forms -/

/-- The declared fields in their order, each under its alias and with a value of
it, and then entries no field has the alias of. -/
def CanonicalOne (fields : List Field) (members : List (String × Json)) : Prop :=
  ∃ values rest, members = values ++ rest ∧
    List.Forall₂ (fun field m => m.1 = field.wireName ∧ field.Fits m.2) fields values ∧
    ∀ m ∈ rest, m.1 ∉ fields.map Field.wireName

/-- What is rendered is a canonical form. -/
theorem canonical_of_renderOne {value j : Json} (h : renderOne numberOf fields value = some j) :
    ∃ members, j = .obj members ∧ CanonicalOne fields members := by
  obtain ⟨body, -, hall, rfl⟩ := renderOne_eq_some h
  have hvalues : ∀ l ⊆ fields, List.Forall₂ (fun field m => m.1 = field.wireName ∧ field.Fits m.2) l
      ((fieldValues numberOf l body).map fun p => (p.1.wireName, p.2)) := by
    intro l hl
    induction l with
    | nil => exact .nil
    | cons field l ih =>
      obtain ⟨hfield, hrest⟩ := List.cons_subset.mp hl
      obtain ⟨v, hv⟩ := hall field hfield
      rw [fieldValues, List.filterMap_cons, hv]
      exact .cons ⟨rfl, fits_of_validate hv⟩ (ih hrest)
  refine ⟨_, rfl, _, _, rfl, hvalues fields (List.Subset.refl _), fun m hm hname => ?_⟩
  obtain ⟨field, hfield, hwire⟩ := List.mem_map.mp hname
  exact wireName_not_mem_extras hfield m hm hwire.symm

section Canonical

variable {members values rest : List (String × Json)}

/-- Every field is there once. By induction on the fields. -/
theorem filter_values (hnodup : (fields.map Field.wireName).Nodup)
    (h : List.Forall₂ (fun field m => m.1 = field.wireName ∧ field.Fits m.2) fields values) :
    ∀ field ∈ fields, ∃ v, values.filter (fun m => m.1 == field.wireName) =
      [(field.wireName, v)] ∧ field.Fits v := by
  induction h with
  | nil => simp
  | @cons head m fields values hm hrest ih =>
    obtain ⟨key, v⟩ := m
    obtain ⟨rfl, hfits⟩ := hm
    obtain ⟨hhead, hnodup⟩ := List.nodup_cons.mp hnodup
    have hnone : ∀ {fields : List Field} {values : List (String × Json)} {name : String},
        List.Forall₂ (fun field m => m.1 = field.wireName ∧ field.Fits m.2) fields values →
        name ∉ fields.map Field.wireName → values.filter (fun m => m.1 == name) = [] := by
      intro fields values name h hname
      induction h with
      | nil => rfl
      | cons hm _ ih =>
        obtain ⟨hne, hname⟩ := List.ne_and_not_mem_of_not_mem_cons hname
        rw [List.filter_cons_of_neg (by simpa [hm.1] using Ne.symm hne), ih hname]
    refine List.forall_mem_cons.mpr ⟨⟨v, ?_, hfits⟩, fun field hfield => ?_⟩
    · rw [List.filter_cons_of_pos (by simp), hnone hrest hhead]
    · have hne : head.wireName ≠ field.wireName := by
        intro heq
        exact hhead (heq ▸ List.mem_map_of_mem hfield)
      rw [List.filter_cons_of_neg (by simpa using hne)]
      exact ih hnodup field hfield

/-- A canonical form conforms to the model. -/
theorem CanonicalOne.conforms (hnodup : (fields.map Field.wireName).Nodup)
    (h : CanonicalOne fields members) : ConformsOne fields (.obj members) := by
  obtain ⟨values, rest, rfl, hvalues, hrest⟩ := h
  refine ⟨_, rfl, fun field hfield => ?_⟩
  obtain ⟨v, hfilter, hfits⟩ := filter_values hnodup hvalues field hfield
  refine ⟨v, ?_, hfits⟩
  have hnone : rest.filter (fun m => m.1 == field.wireName) = [] := by
    rw [List.filter_eq_nil_iff]
    intro m hm hname
    exact hrest m hm (beq_iff_eq.mp hname ▸ List.mem_map_of_mem hfield)
  rw [List.filter_append, hfilter, hnone, List.append_nil]

/-- A canonical form stays one when it is written, as long as every field may be
null. -/
theorem CanonicalOne.written (hoptional : ∀ field ∈ fields, field.required = false)
    (h : CanonicalOne fields members) :
    CanonicalOne fields (members.map fun m => (m.1, m.2.written)) := by
  obtain ⟨values, rest, rfl, hvalues, hrest⟩ := h
  refine ⟨_, _, List.map_append, ?_, fun m hm => ?_⟩
  · clear hrest
    induction hvalues with
    | nil => exact .nil
    | cons hm _ ih =>
      obtain ⟨hfield, hoptional⟩ := List.forall_mem_cons.mp hoptional
      exact .cons ⟨hm.1, hm.2.written hfield⟩ (ih hoptional)
  · obtain ⟨m', hm', rfl⟩ := List.mem_map.mp hm
    exact hrest m' hm'

theorem get_eq_of_filter {key : String} {v : Json}
    (h : members.filter (fun m => m.1 == key) = [(key, v)]) : Json.get members key = some v := by
  rw [Json.get, ← List.head?_filter, h]
  rfl

/-- Every field of a conforming object is taken from its alias, as it is. -/
theorem validate_of_conforms (hfloat : ∀ x, numberOf (.float x) = some x) {field : Field}
    {v : Json} (hfilter : body.filter (fun m => m.1 == field.wireName) = [(field.wireName, v)])
    (hfits : field.Fits v) : field.validate numberOf body = .ok v := by
  have hentry := entry_of_wireName (get_eq_of_filter hfilter)
  simp only [Field.validate, hentry, coerce_of_fits hfloat hfits]

/-- The keys that are used in a conforming object are the aliases. -/
theorem usedKeys_of_conforms
    (h : ∀ field ∈ fields, ∃ v, Json.get body field.wireName = some v) :
    usedKeys fields body = fields.map Field.wireName := by
  rw [usedKeys, ← List.filterMap_eq_map]
  refine List.filterMap_congr fun field hfield => ?_
  obtain ⟨v, hv⟩ := h field hfield
  rw [entry_of_wireName hv]
  rfl

/-- The values of the fields, if each validates to the one that is listed. -/
theorem fieldValues_eq
    (h : List.Forall₂ (fun field m => m.1 = field.wireName ∧ field.Fits m.2) fields values)
    (hvalidate : ∀ field ∈ fields, ∀ v, (field.wireName, v) ∈ values →
      field.validate numberOf body = .ok v) :
    (fieldValues numberOf fields body).map (fun p => (p.1.wireName, p.2)) = values := by
  induction h with
  | nil => rfl
  | @cons head m fields values hm _ ih =>
    obtain ⟨key, v⟩ := m
    obtain ⟨rfl, -⟩ := hm
    obtain ⟨hhead, hvalidate⟩ := List.forall_mem_cons.mp hvalidate
    rw [fieldValues, List.filterMap_cons, hhead v (List.mem_cons_self ..), List.map_cons]
    rw [← fieldValues, ih fun field hfield v hv => hvalidate field hfield v
      (List.mem_cons_of_mem _ hv)]

/-- **A canonical form is rendered as it is.** -/
theorem renderOne_of_canonical (hfloat : ∀ x, numberOf (.float x) = some x)
    (hnodup : (fields.map Field.wireName).Nodup) (h : CanonicalOne fields members) :
    renderOne numberOf fields (.obj members) = some (.obj members) := by
  obtain ⟨members', heq, hconforms⟩ := h.conforms hnodup
  obtain rfl := Json.obj.inj heq
  obtain ⟨values, rest, hsplit, hvalues, hrest⟩ := h
  have hvalidate : ∀ field ∈ fields, ∀ v, (field.wireName, v) ∈ members →
      field.validate numberOf members = .ok v := by
    intro field hfield v hv
    obtain ⟨w, hfilter, hfits⟩ := hconforms field hfield
    have hmem : (field.wireName, v) ∈ members.filter fun m => m.1 == field.wireName :=
      List.mem_filter.mpr ⟨hv, beq_self_eq_true _⟩
    rw [hfilter, List.mem_singleton] at hmem
    cases hmem
    exact validate_of_conforms hfloat hfilter hfits
  have hused : usedKeys fields members = fields.map Field.wireName := by
    refine usedKeys_of_conforms fun field hfield => ?_
    obtain ⟨v, hfilter, -⟩ := hconforms field hfield
    exact ⟨v, get_eq_of_filter hfilter⟩
  -- the values come first, and the entries that are kept after them
  have hfields : (fieldValues numberOf fields members).map (fun p => (p.1.wireName, p.2)) = values :=
    fieldValues_eq hvalues fun field hfield v hv =>
      hvalidate field hfield v (hsplit ▸ List.mem_append_left _ hv)
  have hgone : values.filter (fun m => !(fields.map Field.wireName).contains m.1) = [] := by
    rw [List.filter_eq_nil_iff]
    intro m hm
    rw [← hfields] at hm
    obtain ⟨p, hp, rfl⟩ := List.mem_map.mp hm
    obtain ⟨field, hfield, hp⟩ := List.mem_filterMap.mp hp
    split at hp
    · cases hp
    · obtain rfl := Option.some.inj hp
      simpa using ⟨field, hfield, rfl⟩
  have hkept : rest.filter (fun m => !(fields.map Field.wireName).contains m.1) = rest := by
    rw [List.filter_eq_self]
    intro m hm
    simpa using hrest m hm
  have hall : ∀ field ∈ fields, ∃ v, field.validate numberOf members = .ok v := by
    intro field hfield
    obtain ⟨v, hfilter, hfits⟩ := hconforms field hfield
    exact ⟨v, validate_of_conforms hfloat hfilter hfits⟩
  rw [renderOne_obj hall, serialised, hfields, extras, hused]
  rw [show members.filter (fun m => !(fields.map Field.wireName).contains m.1) = rest by
    rw [hsplit, List.filter_append, hgone, hkept, List.nil_append], ← hsplit]

end Canonical

/-- A canonical form of a response model. -/
def Shape.Canonical : Shape → Json → Prop
  | .one fields, j => ∃ members, j = .obj members ∧ CanonicalOne fields members
  | .many fields, j => ∃ values, j = .arr values ∧
      ∀ v ∈ values, ∃ members, v = .obj members ∧ CanonicalOne fields members

/-- The items of a rendered list are rendered one by one. -/
theorem render_many_eq_some {value j : Json} (h : render numberOf (.many fields) value = some j) :
    ∃ values rendered, value = .arr values ∧ j = .arr rendered ∧
      values.mapM (renderOne numberOf fields) = some rendered := by
  cases value with
  | arr values =>
    obtain ⟨rendered, hrendered, rfl⟩ := Option.map_eq_some_iff.mp h
    exact ⟨values, rendered, rfl, rfl, hrendered⟩
  | _ => cases h

theorem mapM_renderOne {values rendered : List Json}
    (h : values.mapM (renderOne numberOf fields) = some rendered) :
    ∀ j ∈ rendered, ∃ value, renderOne numberOf fields value = some j := by
  induction values generalizing rendered with
  | nil =>
    cases h
    exact fun j hj => absurd hj List.not_mem_nil
  | cons value values ih =>
    rw [List.mapM_cons] at h
    obtain ⟨first, hfirst, h⟩ := Option.bind_eq_some_iff.mp h
    obtain ⟨rest, hrest, h⟩ := Option.bind_eq_some_iff.mp h
    obtain rfl := Option.some.inj h
    intro j hj
    rcases List.mem_cons.mp hj with rfl | hj
    · exact ⟨value, hfirst⟩
    · exact ih hrest j hj

theorem mapM_eq_self {rendered : List Json}
    (h : ∀ j ∈ rendered, renderOne numberOf fields j = some j) :
    rendered.mapM (renderOne numberOf fields) = some rendered := by
  induction rendered with
  | nil => rfl
  | cons j rendered ih =>
    rw [List.mapM_cons, h j (List.mem_cons_self ..),
      ih fun j' hj' => h j' (List.mem_cons_of_mem _ hj')]
    rfl

/-- **What is rendered is a canonical form.** -/
theorem canonical_of_render {shape : Shape} {value j : Json}
    (h : render numberOf shape value = some j) : shape.Canonical j := by
  cases shape with
  | one fields => exact canonical_of_renderOne h
  | many fields =>
    obtain ⟨values, rendered, -, rfl, hrendered⟩ := render_many_eq_some h
    refine ⟨rendered, rfl, fun v hv => ?_⟩
    obtain ⟨value, hvalue⟩ := mapM_renderOne hrendered v hv
    exact canonical_of_renderOne hvalue

namespace Shape.Canonical

variable {shape : Shape} {j : Json}

theorem conforms (hnodup : (shape.fields.map Field.wireName).Nodup) (h : shape.Canonical j) :
    shape.Conforms j := by
  cases shape with
  | one fields =>
    obtain ⟨members, rfl, hmembers⟩ := h
    exact hmembers.conforms hnodup
  | many fields =>
    obtain ⟨values, rfl, hvalues⟩ := h
    refine ⟨values, rfl, fun v hv => ?_⟩
    obtain ⟨members, rfl, hmembers⟩ := hvalues v hv
    exact hmembers.conforms hnodup

/-- It is rendered as it is. -/
theorem render_eq (hfloat : ∀ x, numberOf (.float x) = some x)
    (hnodup : (shape.fields.map Field.wireName).Nodup) (h : shape.Canonical j) :
    render numberOf shape j = some j := by
  cases shape with
  | one fields =>
    obtain ⟨members, rfl, hmembers⟩ := h
    exact renderOne_of_canonical hfloat hnodup hmembers
  | many fields =>
    obtain ⟨values, rfl, hvalues⟩ := h
    have hall : ∀ v ∈ values, renderOne numberOf fields v = some v := by
      intro v hv
      obtain ⟨members, rfl, hmembers⟩ := hvalues v hv
      exact renderOne_of_canonical hfloat hnodup hmembers
    rw [render, mapM_eq_self hall]
    rfl

/-- What is written for it is one, as long as every field may be null. -/
theorem written (hoptional : ∀ field ∈ shape.fields, field.required = false)
    (h : shape.Canonical j) : shape.Canonical j.written := by
  cases shape with
  | one fields =>
    obtain ⟨members, rfl, hmembers⟩ := h
    refine ⟨_, ?_, hmembers.written hoptional⟩
    rw [Json.written, Json.written_members_eq]
  | many fields =>
    obtain ⟨values, rfl, hvalues⟩ := h
    refine ⟨values.map Json.written, ?_, fun v hv => ?_⟩
    · rw [Json.written, Json.written_items_eq]
    · obtain ⟨v, hmem, rfl⟩ := List.mem_map.mp hv
      obtain ⟨members, rfl, hmembers⟩ := hvalues v hmem
      refine ⟨_, ?_, hmembers.written hoptional⟩
      rw [Json.written, Json.written_members_eq]

end Shape.Canonical

end Render

/-! ## What can be rendered -/

/-- The field takes the value. -/
def Field.Takes (numberOf : Json → Option PyFloat) (field : Field) (given : Json) : Prop :=
  ∃ v, field.coerce numberOf given = some v

section Takes

variable {numberOf : Json → Option PyFloat} {field : Field} {fields : List Field}
  {body : List (String × Json)}

/-- A text field takes strings. -/
theorem takes_text_iff (hkind : field.kind = .text) {given : Json} (hne : given ≠ .null) :
    field.Takes numberOf given ↔ given.isStr = true := by
  constructor
  · rintro ⟨v, hcoerce⟩
    cases given with
    | null => exact absurd rfl hne
    | str s => rfl
    | _ => simp [Field.coerce, hkind, Json.isStr] at hcoerce
  · intro h
    exact ⟨given, coerce_of_isStr hkind h⟩

theorem get_of_entry {key : String} {v : Json} (h : field.entry body = some (key, v)) :
    Json.get body key = some v := by
  unfold Field.entry at h
  split at h
  · rename_i hget
    cases h
    exact hget
  · obtain ⟨w, hget, heq⟩ := Option.map_eq_some_iff.mp h
    cases heq
    exact hget

/-- **When an object is rendered**: every entry a field is taken from has a
value of that field. -/
theorem renderOne_isSome_iff (hoptional : ∀ field ∈ fields, field.required = false) :
    (∃ j, renderOne numberOf fields (.obj body) = some j) ↔
      ∀ field ∈ fields, ∀ m, field.entry body = some m → field.Takes numberOf m.2 := by
  constructor
  · rintro ⟨j, hj⟩ field hfield m hentry
    obtain ⟨body', hbody, hall, -⟩ := renderOne_eq_some hj
    obtain rfl := Json.obj.inj hbody
    obtain ⟨v, hv⟩ := hall field hfield
    exact ⟨v, coerce_of_validate hentry hv⟩
  · intro htakes
    refine ⟨_, renderOne_obj fun field hfield => validate_isOk_iff.mpr ⟨fun _ => ?_, ?_⟩⟩
    · exact hoptional field hfield
    · exact fun key given hentry => htakes field hfield _ hentry

/-- A value that conforms to the model is rendered. -/
theorem renderOne_of_conforms (hfloat : ∀ x, numberOf (.float x) = some x)
    (hoptional : ∀ field ∈ fields, field.required = false) {value : Json}
    (h : ConformsOne fields value) : ∃ j, renderOne numberOf fields value = some j := by
  obtain ⟨body, rfl, hall⟩ := h
  refine (renderOne_isSome_iff hoptional).mpr fun field hfield m hm => ?_
  obtain ⟨v, hfilter, hfits⟩ := hall field hfield
  rw [entry_of_wireName (get_eq_of_filter hfilter)] at hm
  obtain rfl := Option.some.inj hm
  exact ⟨v, coerce_of_fits hfloat hfits⟩

/-- A list is rendered item by item. -/
theorem render_many_of_conforms (hfloat : ∀ x, numberOf (.float x) = some x)
    (hoptional : ∀ field ∈ fields, field.required = false) {values : List Json}
    (hconforms : ∀ v ∈ values, ConformsOne fields v) :
    ∃ j, render numberOf (.many fields) (.arr values) = some j := by
  have hrendered : ∃ rendered, values.mapM (renderOne numberOf fields) = some rendered := by
    induction values with
    | nil => exact ⟨[], rfl⟩
    | cons v values ih =>
      obtain ⟨hv, hvalues⟩ := List.forall_mem_cons.mp hconforms
      obtain ⟨j, hj⟩ := renderOne_of_conforms hfloat hoptional hv
      obtain ⟨rest, hrest⟩ := ih hvalues
      refine ⟨j :: rest, ?_⟩
      rw [List.mapM_cons, hj, hrest]
      rfl
  obtain ⟨rendered, hmap⟩ := hrendered
  exact ⟨.arr rendered, by rw [render, hmap]; rfl⟩

end Takes

/-! ## Answers over defaults -/

/-- The entries of a payload, over defaults that are texts: a text where there
is a default, and a number where the number is read. -/
def Suits (numberOf : Json → Option PyFloat) (texts : List String) (number : Field)
    (payload : List (String × Json)) : Prop :=
  ∀ m ∈ payload, (m.1 ∈ texts → m.2.isStr = true) ∧
    (number.entry payload = some m → number.Takes numberOf m.2)

/-- A model whose fields are texts with a default, one text that the payload
has, and one number. -/
structure Covers (fields : List Field) (defaults : List (String × Json)) (given : String)
    (number : Field) : Prop where
  optional : ∀ field ∈ fields, field.required = false
  kinds : ∀ field ∈ fields, field = number ∨
    field.kind = .text ∧ (field.wireName ∈ defaults.map Prod.fst ∨ field.wireName = given)
  texts : ∀ key ∈ defaults.map Prod.fst, ∃ field ∈ fields, field.kind = .text ∧ field.wireName = key
  isStr : ∀ m ∈ defaults, m.2.isStr = true
  nodup : (defaults.map Prod.fst).Nodup
  mem : number ∈ fields
  wireName : number.wireName ∉ defaults.map Prod.fst
  name : number.name ∉ defaults.map Prod.fst

section Defaults

variable {numberOf : Json → Option PyFloat} {fields : List Field}
  {defaults payload : List (String × Json)} {given : String} {number : Field}

/-- A field that has no default is taken from the payload. -/
theorem entry_update (hnodup : (payload.map Prod.fst).Nodup) {field : Field}
    (hwire : field.wireName ∉ defaults.map Prod.fst) (hname : field.name ∉ defaults.map Prod.fst) :
    field.entry (Json.update defaults payload) = field.entry payload := by
  simp only [Field.entry, Json.get_update hnodup, Json.get_eq_none_iff.mpr hwire,
    Json.get_eq_none_iff.mpr hname, Option.or_none]

theorem get_update_of_mem (hnodup : (payload.map Prod.fst).Nodup) {m : String × Json}
    (hm : m ∈ payload) : Json.get (Json.update defaults payload) m.1 = some m.2 := by
  rw [Json.get_update hnodup, Json.get_of_mem hnodup hm, Option.or]

/-- A text of the model is read under its alias. -/
theorem Covers.get_text (h : Covers fields defaults given number)
    (hnodup : (payload.map Prod.fst).Nodup)
    (hgiven : ∃ v, Json.get payload given = some v ∧ v.isStr = true)
    (htexts : ∀ m ∈ payload, m.1 ∈ defaults.map Prod.fst → m.2.isStr = true) {key : String}
    (hkey : key ∈ defaults.map Prod.fst ∨ key = given) :
    ∃ v, Json.get (Json.update defaults payload) key = some v ∧ v.isStr = true := by
  rw [Json.get_update hnodup]
  rcases hkey with hdefault | rfl
  · cases hread : Json.get payload key with
    | some v => exact ⟨v, rfl, htexts _ (Json.mem_of_get hread) hdefault⟩
    | none =>
      obtain ⟨d, hd, rfl⟩ := List.mem_map.mp hdefault
      exact ⟨d.2, Json.get_of_mem h.nodup hd, h.isStr d hd⟩
  · obtain ⟨v, hv, hstr⟩ := hgiven
    exact ⟨v, by rw [hv]; rfl, hstr⟩

/-- **When a payload over defaults is rendered.** -/
theorem renderOne_update_iff (h : Covers fields defaults given number)
    (hnodup : (payload.map Prod.fst).Nodup) (hnull : ∀ m ∈ payload, m.2 ≠ .null)
    (hgiven : ∃ v, Json.get payload given = some v ∧ v.isStr = true) :
    (∃ j, renderOne numberOf fields (.obj (Json.update defaults payload)) = some j) ↔
      Suits numberOf (defaults.map Prod.fst) number payload := by
  have hnumber : number.entry (Json.update defaults payload) = number.entry payload :=
    entry_update hnodup h.wireName h.name
  rw [renderOne_isSome_iff h.optional]
  constructor
  · intro htakes m hm
    refine ⟨fun htext => ?_, fun hentry => htakes number h.mem m (hnumber.trans hentry)⟩
    obtain ⟨field, hfield, hkind, hwire⟩ := h.texts m.1 htext
    have hfrom : field.entry (Json.update defaults payload) = some (field.wireName, m.2) :=
      entry_of_wireName (hwire ▸ get_update_of_mem hnodup hm)
    exact (takes_text_iff hkind (hnull m hm)).mp
      (htakes field hfield (field.wireName, m.2) hfrom)
  · intro hsuits field hfield m hentry
    rcases h.kinds field hfield with rfl | ⟨hkind, hwire⟩
    · rw [hnumber] at hentry
      exact (hsuits m (Json.mem_of_get (get_of_entry hentry))).2 hentry
    · obtain ⟨v, hread, hv⟩ := h.get_text hnodup hgiven (fun m hm => (hsuits m hm).1) hwire
      rw [entry_of_wireName hread] at hentry
      obtain rfl := Option.some.inj hentry
      exact ⟨v, coerce_of_isStr hkind hv⟩

end Defaults

/-! ## What a dump gives -/

section Dump

variable {numberOf : Json → Option PyFloat} {fields : List Field} {body : List (String × Json)}
  {m : Instance}

/-- The keys of a dump are distinct. -/
theorem nodup_dump (hnodup : (fields.map Field.wireName).Nodup)
    (hbody : (body.map Prod.fst).Nodup)
    (h : validate numberOf fields (some (.obj body)) = .ok m) : (m.dump.map Prod.fst).Nodup := by
  obtain ⟨rfl, -⟩ := validate_eq_ok h
  have hvalues : ((fieldValues numberOf fields body).map fun p => p.1.wireName).Sublist
      (fields.map Field.wireName) := by
    clear h hnodup
    induction fields with
    | nil => exact List.Sublist.refl _
    | cons field fields ih =>
      rw [fieldValues, List.filterMap_cons]
      cases field.validate numberOf body with
      | error e => exact ih.cons _
      | ok v => exact ih.cons_cons _
  refine List.Nodup.sublist (List.filter_sublist.map Prod.fst) ?_
  rw [List.map_append, List.map_map]
  refine List.nodup_append.mpr ⟨hnodup.sublist hvalues,
    hbody.sublist (List.filter_sublist.map Prod.fst), ?_⟩
  rintro key hkey key' hkey' rfl
  obtain ⟨field, hfield, rfl⟩ := List.mem_map.mp (hvalues.subset hkey)
  obtain ⟨m, hm, hwire⟩ := List.mem_map.mp hkey'
  exact wireName_not_mem_extras hfield m hm hwire

/-- A required field is dumped under its alias, with a value of it. -/
theorem get_dump_of_required (hnodup : (fields.map Field.wireName).Nodup)
    (h : validate numberOf fields (some (.obj body)) = .ok m) {field : Field}
    (hfield : field ∈ fields) (hrequired : field.required = true) :
    ∃ v, Json.get m.dump field.wireName = some v ∧ v ≠ .null ∧ field.Fits v := by
  obtain ⟨v, hv⟩ := (validate_eq_ok h).2 field hfield
  cases hentry : field.entry body with
  | none => simp [Field.validate, hentry, hrequired] at hv
  | some p =>
    have hne : p.2 ≠ .null := by
      intro hnull
      have hcoerce := coerce_of_validate hentry hv
      rw [hnull] at hcoerce
      simp [Field.coerce, hrequired] at hcoerce
    obtain ⟨_, _, w, hentry', hcoerce, honce⟩ := once_of_entry hnodup h hfield hentry hne
    rw [hentry] at hentry'
    cases hentry'
    exact ⟨w, get_eq_of_filter honce, coerce_ne_null hcoerce hne, fits_of_coerce hcoerce⟩

/-- What stands in a dump under an alias is a value of the field. -/
theorem fits_of_get_dump (hnodup : (fields.map Field.wireName).Nodup)
    (h : validate numberOf fields (some (.obj body)) = .ok m) {field : Field}
    (hfield : field ∈ fields) {v : Json} (hget : Json.get m.dump field.wireName = some v) :
    field.Fits v := by
  obtain ⟨rfl, hall⟩ := validate_eq_ok h
  obtain ⟨w, hw⟩ := hall field hfield
  have hmem : (field.wireName, v) ∈ serialised numberOf fields body :=
    List.mem_of_mem_filter (Json.mem_of_get hget)
  have hfilter := filter_serialised hnodup hfield hw
  have hsame : (field.wireName, v) ∈
      (serialised numberOf fields body).filter (fun m => m.1 == field.wireName) :=
    List.mem_filter.mpr ⟨hmem, beq_self_eq_true _⟩
  rw [hfilter, List.mem_singleton] at hsame
  cases hsame
  exact fits_of_validate hw

end Dump

end Model

end KgaGateway
