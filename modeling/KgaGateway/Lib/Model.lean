import KgaGateway.Lib.Json

/-!
# Declared models: validation and dumping of a JSON object

A model declares fields, each with a Python name and a wire alias. Validation
takes a field from its alias or, failing that, from its name, checks it, and
keeps every entry of the body that no field used. Dumping by alias without
nulls gives the fields back under their aliases and the kept entries under
their own keys.

How a number is read out of a JSON value is the validator's affair and comes
in as a parameter.
-/

namespace KgaGateway

/-- An entry of a validation error: its type and the path of the field. -/
structure FieldError : Type where
  type : String
  loc : List String
  deriving DecidableEq

namespace Model

/-- What a field holds. -/
inductive Kind : Type where
  /-- `str` -/
  | text : Kind
  /-- `float` -/
  | number : Kind
  deriving DecidableEq

/-- A declared field. An optional one is `… | None` with default `None`. -/
structure Field : Type where
  name : String
  wireName : String
  kind : Kind
  required : Bool
  deriving DecidableEq

/-- `str = Field(alias=…)`. -/
def requiredText (name wireName : String) : Field := ⟨name, wireName, .text, true⟩

/-- `str | None = Field(default=None, alias=…)`. -/
def optionalText (name wireName : String) : Field := ⟨name, wireName, .text, false⟩

/-- `float = Field(alias=…)`. -/
def requiredNumber (name wireName : String) : Field := ⟨name, wireName, .number, true⟩

/-- `float | None = Field(default=None, alias=…)`. -/
def optionalNumber (name wireName : String) : Field := ⟨name, wireName, .number, false⟩

/-- A validated model: a value for each declared field, and the entries kept. -/
structure Instance : Type where
  values : List (Field × Json)
  extras : List (String × Json)

section Validation

variable (numberOf : Json → Option PyFloat)

/-- The entry of the body a field is taken from: its alias, else its name. -/
def Field.entry (field : Field) (body : List (String × Json)) : Option (String × Json) :=
  match Json.get body field.wireName with
  | some v => some (field.wireName, v)
  | none => (Json.get body field.name).map fun v => (field.name, v)

/-- The error type of a value a field does not take. -/
def Field.errorType (field : Field) (v : Json) : String :=
  match field.kind with
  | .text => "string_type"
  | .number => if v.isStr then "float_parsing" else "float_type"

/-- The value of a field, from one it is given. -/
def Field.coerce (field : Field) (v : Json) : Option Json :=
  match v with
  -- only `… | None` takes `None`
  | .null => if field.required then none else some .null
  | v =>
    match field.kind with
    | .text => if v.isStr then some v else none
    | .number => (numberOf v).map .float

/-- Validate one field. -/
def Field.validate (field : Field) (body : List (String × Json)) : Except FieldError Json :=
  match field.entry body with
  | none => if field.required then .error ⟨"missing", ["body", field.wireName]⟩ else .ok .null
  | some (key, v) =>
    match field.coerce numberOf v with
    | none => .error ⟨field.errorType v, ["body", key]⟩
    | some v => .ok v

/-- The errors of all fields, in their order. -/
def fieldErrors (fields : List Field) (body : List (String × Json)) : List FieldError :=
  fields.filterMap fun field =>
    match field.validate numberOf body with
    | .error e => some e
    | .ok _ => none

/-- The values of all fields that have one, in their order. -/
def fieldValues (fields : List Field) (body : List (String × Json)) : List (Field × Json) :=
  fields.filterMap fun field =>
    match field.validate numberOf body with
    | .error _ => none
    | .ok v => some (field, v)

/-- The keys of the body that a field used. -/
def usedKeys (fields : List Field) (body : List (String × Json)) : List String :=
  fields.filterMap fun field => (field.entry body).map Prod.fst

/-- The entries no field used. -/
def extras (fields : List Field) (body : List (String × Json)) : List (String × Json) :=
  body.filter fun m => !(usedKeys fields body).contains m.1

/-- Validate a request body against a model: it must be there and be an
object, and every field must validate. -/
def validate (fields : List Field) : Option Json → Except (List FieldError) Instance
  | none => .error [⟨"missing", ["body"]⟩]
  | some .null => .error [⟨"missing", ["body"]⟩]
  | some (.obj body) =>
    if (fieldErrors numberOf fields body).isEmpty then
      .ok ⟨fieldValues numberOf fields body, extras fields body⟩
    else .error (fieldErrors numberOf fields body)
  | some _ => .error [⟨"model_attributes_type", ["body"]⟩]

end Validation

/-! ## Dumping -/

/-- Is it `None`? -/
def isNull : Json → Bool
  | .null => true
  | _ => false

/-- `model_dump(by_alias=True, exclude_none=True)`. -/
def Instance.dump (m : Instance) : List (String × Json) :=
  (m.values.map (fun p => (p.1.wireName, p.2)) ++ m.extras).filter fun m => !isNull m.2

theorem not_isNull_iff {v : Json} : (!isNull v) = true ↔ v ≠ .null := by
  cases v with
  | null => simp [isNull]
  | _ => simp [isNull]

/-- What a response model serialises to: the nulls stay. -/
def Instance.toJson (m : Instance) : Json :=
  .obj (m.values.map (fun p => (p.1.wireName, p.2)) ++ m.extras)

/-- A response model: one object, or a list of them. -/
inductive Shape : Type where
  | one : List Field → Shape
  | many : List Field → Shape

/-- Render a returned value as one object. -/
def renderOne (numberOf : Json → Option PyFloat) (fields : List Field) (value : Json) :
    Option Json :=
  match validate numberOf fields (some value) with
  | .ok m => some m.toJson
  | .error _ => none

/-- Render a returned value through a response model. -/
def render (numberOf : Json → Option PyFloat) : Shape → Json → Option Json
  | .one fields, value => renderOne numberOf fields value
  | .many fields, .arr values => (values.mapM (renderOne numberOf fields)).map .arr
  | .many _, _ => none

/-! ## What a dump keeps -/

/-- The keys a model knows: the aliases and the names of its fields. -/
def declaredKeys (fields : List Field) : List String :=
  fields.flatMap fun field => [field.wireName, field.name]

/-- The body gives the field a value that is not null, under its alias or under
its name. -/
def Field.Given (field : Field) (body : List (String × Json)) : Prop :=
  ∃ v, v ≠ .null ∧ (Json.get body field.wireName = some v ∨ Json.get body field.name = some v)

/-- The payload has the field once, under its alias, with the value that the
field takes from the body. -/
def Field.Once (numberOf : Json → Option PyFloat) (field : Field)
    (body payload : List (String × Json)) : Prop :=
  ∃ key given v, field.entry body = some (key, given) ∧ field.coerce numberOf given = some v ∧
    payload.filter (fun m => m.1 == field.wireName) = [(field.wireName, v)]

/-- Nothing that the body gives is lost in the payload: every entry the model
does not know is there as it was, and every field that is given is there once. -/
structure PassesThrough (numberOf : Json → Option PyFloat) (fields : List Field)
    (body payload : List (String × Json)) : Prop where
  unknown : ∀ m ∈ body, m.1 ∉ declaredKeys fields → m ∈ payload
  declared : ∀ field ∈ fields, field.Given body → field.Once numberOf body payload

/-- A null that costs the payload something: the value of an entry the model
does not know, or the value under a field's alias where the name has another. -/
def LosesNull (fields : List Field) (body : List (String × Json)) : Prop :=
  (∃ key, key ∉ declaredKeys fields ∧ (key, .null) ∈ body) ∨
    ∃ field ∈ fields, Json.get body field.wireName = some .null ∧
      ∃ v, v ≠ .null ∧ Json.get body field.name = some v

section Dump

variable {numberOf : Json → Option PyFloat} {fields : List Field} {field : Field}
  {body : List (String × Json)}

/-- A value that is not null stays one. -/
theorem coerce_ne_null {given v : Json} (h : field.coerce numberOf given = some v)
    (hne : given ≠ .null) : v ≠ .null := by
  rintro rfl
  unfold Field.coerce at h
  split at h
  · exact hne rfl
  · split at h
    · split at h
      · exact hne (Option.some.inj h)
      · cases h
    · obtain ⟨x, -, hx⟩ := Option.map_eq_some_iff.mp h
      cases hx

/-- Null is the value of no required field. -/
theorem coerce_null {v : Json} (h : field.coerce numberOf .null = some v) : v = .null := by
  simp only [Field.coerce] at h
  split at h
  · cases h
  · exact (Option.some.inj h).symm

theorem entry_key {m : String × Json} (h : field.entry body = some m) :
    m.1 = field.wireName ∨ m.1 = field.name := by
  unfold Field.entry at h
  split at h
  · obtain rfl := Option.some.inj h
    exact Or.inl rfl
  · obtain ⟨v, -, rfl⟩ := Option.map_eq_some_iff.mp h
    exact Or.inr rfl

theorem entry_of_wireName {v : Json} (h : Json.get body field.wireName = some v) :
    field.entry body = some (field.wireName, v) := by
  simp only [Field.entry, h]

theorem usedKeys_subset : usedKeys fields body ⊆ declaredKeys fields := by
  intro key hkey
  obtain ⟨field, hfield, hentry⟩ := List.mem_filterMap.mp hkey
  obtain ⟨m, hm, rfl⟩ := Option.map_eq_some_iff.mp hentry
  refine List.mem_flatMap.mpr ⟨field, hfield, ?_⟩
  rcases entry_key hm with h | h <;> simp [h]

/-- An entry under an alias is always used. -/
theorem wireName_not_mem_extras (hfield : field ∈ fields) :
    ∀ m ∈ extras fields body, m.1 ≠ field.wireName := by
  rintro ⟨key, v⟩ hm rfl
  obtain ⟨hbody, hunused⟩ := List.mem_filter.mp hm
  cases hget : Json.get body field.wireName with
  | none => exact Json.get_eq_none_iff.mp hget (List.mem_map_of_mem hbody)
  | some w =>
    have hused : field.wireName ∈ usedKeys fields body :=
      List.mem_filterMap.mpr ⟨field, hfield, by rw [entry_of_wireName hget]; rfl⟩
    simp [hused] at hunused

/-- What validation accepts: every field validates. -/
theorem validate_eq_ok {m : Instance} (h : validate numberOf fields (some (.obj body)) = .ok m) :
    m = ⟨fieldValues numberOf fields body, extras fields body⟩ ∧
      ∀ field ∈ fields, ∃ v, field.validate numberOf body = .ok v := by
  simp only [validate] at h
  split at h
  · rename_i hnone
    refine ⟨(Except.ok.inj h).symm, fun field hfield => ?_⟩
    have hfail := List.filterMap_eq_nil_iff.mp (List.isEmpty_iff.mp hnone) field hfield
    cases hv : field.validate numberOf body with
    | ok v => exact ⟨v, rfl⟩
    | error e => simp [hv] at hfail
  · cases h

/-- The value of a field that has an entry is read out of it. -/
theorem coerce_of_validate {key : String} {given v : Json}
    (hentry : field.entry body = some (key, given)) (hv : field.validate numberOf body = .ok v) :
    field.coerce numberOf given = some v := by
  simp only [Field.validate, hentry] at hv
  split at hv
  · cases hv
  · rename_i hcoerce
    rw [hcoerce, Except.ok.inj hv]

/-- With distinct aliases every field has its value once. By induction on the
fields: those with another alias are filtered out. -/
theorem filter_fieldValues (hnodup : (fields.map Field.wireName).Nodup) (hfield : field ∈ fields)
    {v : Json} (hv : field.validate numberOf body = .ok v) :
    (fieldValues numberOf fields body).filter (fun p => p.1.wireName == field.wireName) =
      [(field, v)] := by
  have hothers : ∀ l : List Field, field.wireName ∉ l.map Field.wireName →
      (fieldValues numberOf l body).filter (fun p => p.1.wireName == field.wireName) = [] := by
    intro l hl
    rw [List.filter_eq_nil_iff]
    intro p hp hname
    obtain ⟨other, hother, hp⟩ := List.mem_filterMap.mp hp
    have hp1 : p.1 = other := by
      split at hp
      · cases hp
      · rw [← Option.some.inj hp]
    exact hl (List.mem_map.mpr ⟨other, hother, by rw [← hp1]; exact beq_iff_eq.mp hname⟩)
  induction fields with
  | nil => cases hfield
  | cons head rest ih =>
    obtain ⟨hhead, hrest⟩ := List.nodup_cons.mp hnodup
    rcases List.mem_cons.mp hfield with rfl | hmem
    · rw [fieldValues, List.filterMap_cons, hv]
      rw [List.filter_cons_of_pos (by simp), ← fieldValues, hothers rest hhead]
    · have hne : head.wireName ≠ field.wireName := by
        intro heq
        exact hhead (heq ▸ List.mem_map_of_mem hmem)
      rw [← ih hrest hmem, fieldValues, List.filterMap_cons]
      cases head.validate numberOf body with
      | error e => rfl
      | ok w => exact List.filter_cons_of_neg (by simpa using hne)

/-- **A given field is dumped once**, whatever else the body has. -/
theorem once_of_entry (hnodup : (fields.map Field.wireName).Nodup) {m : Instance}
    (h : validate numberOf fields (some (.obj body)) = .ok m) (hfield : field ∈ fields)
    {key : String} {given : Json} (hentry : field.entry body = some (key, given))
    (hne : given ≠ .null) : field.Once numberOf body m.dump := by
  obtain ⟨rfl, hall⟩ := validate_eq_ok h
  obtain ⟨v, hv⟩ := hall field hfield
  have hcoerce := coerce_of_validate hentry hv
  refine ⟨key, given, v, hentry, hcoerce, ?_⟩
  have hextras : (extras fields body).filter (fun m => m.1 == field.wireName) = [] := by
    rw [List.filter_eq_nil_iff]
    intro m hm hname
    exact wireName_not_mem_extras hfield m hm (beq_iff_eq.mp hname)
  have hvalues : ((fieldValues numberOf fields body).map fun p => (p.1.wireName, p.2)).filter
      (fun m => m.1 == field.wireName) = [(field.wireName, v)] := by
    rw [List.filter_map]
    exact congrArg _ (filter_fieldValues hnodup hfield hv)
  rw [Instance.dump, List.filter_comm, List.filter_append, hextras, hvalues]
  simp [not_isNull_iff.mpr (coerce_ne_null hcoerce hne)]

/-- A dump has no nulls. -/
theorem ne_null_of_mem_dump {m : Instance} {entry : String × Json} (h : entry ∈ m.dump) :
    entry.2 ≠ .null :=
  not_isNull_iff.mp (List.mem_filter.mp h).2

/-- An entry the model does not know is dumped as it is, unless it is null. -/
theorem mem_dump_of_unknown {m : Instance}
    (h : validate numberOf fields (some (.obj body)) = .ok m) {entry : String × Json}
    (hmem : entry ∈ body) (hunknown : entry.1 ∉ declaredKeys fields) (hne : entry.2 ≠ .null) :
    entry ∈ m.dump := by
  obtain ⟨rfl, -⟩ := validate_eq_ok h
  refine List.mem_filter.mpr ⟨List.mem_append_right _ ?_, not_isNull_iff.mpr hne⟩
  refine List.mem_filter.mpr ⟨hmem, ?_⟩
  simpa using fun hused => hunknown (usedKeys_subset hused)

/-- The value a field takes is not null, if it is given and no null hides it. -/
theorem entry_of_given (hgiven : field.Given body)
    (hnull : ¬ (Json.get body field.wireName = some .null ∧
      ∃ v, v ≠ .null ∧ Json.get body field.name = some v)) :
    ∃ key given, field.entry body = some (key, given) ∧ given ≠ .null := by
  obtain ⟨v, hne, hv⟩ := hgiven
  cases hwire : Json.get body field.wireName with
  | some given =>
    refine ⟨field.wireName, given, entry_of_wireName hwire, ?_⟩
    rintro rfl
    rcases hv with hv | hv
    · rw [hwire] at hv
      exact hne (Option.some.inj hv).symm
    · exact hnull ⟨hwire, v, hne, hv⟩
  | none =>
    rcases hv with hv | hv
    · rw [hwire] at hv
      cases hv
    · exact ⟨field.name, v, by simp only [Field.entry, hwire, hv]; rfl, hne⟩

/-- **Passing through, exactly**: the payload loses what a null costs it, and
nothing else. -/
theorem passesThrough_dump_iff (hnodup : (fields.map Field.wireName).Nodup) {m : Instance}
    (h : validate numberOf fields (some (.obj body)) = .ok m) :
    PassesThrough numberOf fields body m.dump ↔ ¬ LosesNull fields body := by
  constructor
  · rintro hpass (⟨key, hunknown, hmem⟩ | ⟨field, hfield, hwire, v, hne, hname⟩)
    · exact ne_null_of_mem_dump (hpass.unknown _ hmem hunknown) rfl
    · -- the field took the null, and the dump dropped it
      obtain ⟨key, given, w, hentry, hcoerce, honce⟩ :=
        hpass.declared field hfield ⟨v, hne, Or.inr hname⟩
      rw [entry_of_wireName hwire] at hentry
      cases hentry
      have hmem : (field.wireName, w) ∈ m.dump := by
        refine (List.mem_filter (p := fun m => m.1 == field.wireName)).mp ?_ |>.1
        rw [honce]
        exact List.mem_singleton_self _
      exact ne_null_of_mem_dump hmem (coerce_null hcoerce)
  · intro hnot
    refine ⟨?_, ?_⟩
    · rintro ⟨key, v⟩ hmem hunknown
      apply mem_dump_of_unknown h hmem hunknown
      rintro rfl
      exact hnot (Or.inl ⟨key, hunknown, hmem⟩)
    · intro field hfield hgiven
      obtain ⟨key, given, hentry, hne⟩ :=
        entry_of_given hgiven fun hnull => hnot (Or.inr ⟨field, hfield, hnull⟩)
      exact once_of_entry hnodup h hfield hentry hne

end Dump

end Model

end KgaGateway
