import KgaGateway.Lib.Text

/-!
# Settings

`app/config.py`: the settings the modelled functions read, with their
defaults, and the properties derived from them. Settings are read per request
(`get_settings()`), so everything takes them as an argument.
-/

namespace KgaGateway

/-- The per-integration URL namespace (`API_PREFIX`). -/
def apiPrefix : String := "/integrations/example"

/-- `Settings`: the fields the modelled code reads. -/
structure Settings : Type where
  appEnv : String := "dev"
  logLevel : String := "INFO"
  apiKeys : String := ""
  exampleApiBase : String := "https://api.example.com/v1"
  auth0Domain : String := ""
  auth0ApiAudience : String := ""
  auth0Algorithms : String := "RS256"

namespace Settings

/-- `api_key_set`: configured caller keys, ignoring blanks. -/
def apiKeySet (settings : Settings) : List String :=
  ((Text.split ',' settings.apiKeys).filter fun key => Text.strip key != "").map Text.strip

/-- A caller key that a list of keys can name: not empty, no comma in it, no
whitespace at either end. -/
structure IsKey (key : String) : Prop where
  ne_empty : key ≠ ""
  no_comma : ',' ∉ key.toList
  trimmed : Text.Trimmed key

/-- The comma-separated segments of a string that lists the keys: the keys in
order, each with whitespace around it, and blank segments anywhere. -/
inductive Lists : List String → List String → Prop where
  | nil : Lists [] []
  /-- a blank segment -/
  | blank {keys segments : List String} {pad : String} : Text.Blank pad → Lists keys segments →
      Lists keys (pad :: segments)
  /-- a key in its padding -/
  | key {keys segments : List String} {before after : String} (key : String) :
      Text.Blank before → Text.Blank after → Lists keys segments →
      Lists (key :: keys) ((before ++ key ++ after) :: segments)

theorem not_comma_of_blank {s : String} (h : Text.Blank s) : ',' ∉ s.toList := by
  intro hc
  have := h ',' hc
  simp [Text.isSpace] at this

/-- The segments of a list of keys have no comma of their own. -/
theorem Lists.no_comma {keys segments : List String} (h : Lists keys segments)
    (hkeys : ∀ key ∈ keys, IsKey key) : ∀ segment ∈ segments, ',' ∉ segment.toList := by
  induction h with
  | nil => simp
  | blank hpad _ ih =>
    rw [List.forall_mem_cons]
    exact ⟨not_comma_of_blank hpad, ih hkeys⟩
  | key key hb ha _ ih =>
    obtain ⟨hkey, hrest⟩ := List.forall_mem_cons.mp hkeys
    rw [List.forall_mem_cons]
    refine ⟨?_, ih hrest⟩
    simp [not_comma_of_blank hb, not_comma_of_blank ha, hkey.no_comma]

/-- Dropping the blank segments and stripping the others leaves the keys, in
order. -/
theorem Lists.strip {keys segments : List String} (h : Lists keys segments)
    (hkeys : ∀ key ∈ keys, IsKey key) :
    (segments.filter fun segment => Text.strip segment != "").map Text.strip = keys := by
  induction h with
  | nil => rfl
  | blank hpad _ ih =>
    rw [List.filter_cons_of_neg (by simp [(Text.strip_eq_empty_iff _).mpr hpad]), ih hkeys]
  | key key hb ha _ ih =>
    obtain ⟨hkey, hrest⟩ := List.forall_mem_cons.mp hkeys
    have hstrip := Text.strip_padded hb ha hkey.trimmed hkey.ne_empty
    rw [List.filter_cons_of_pos (by simp [hstrip, hkey.ne_empty]), List.map_cons, hstrip,
      ih hrest]

/-- **Parsing a list of keys** gives the keys, in whatever way they are written
down. -/
theorem apiKeySet_of_lists {settings : Settings} {keys segments : List String} (hne : keys ≠ [])
    (hkeys : ∀ key ∈ keys, IsKey key) (h : Lists keys segments)
    (hs : settings.apiKeys = ",".intercalate segments) : settings.apiKeySet = keys := by
  have hsegments : segments ≠ [] := by
    rintro rfl
    cases h
    exact hne rfl
  have hsplit : Text.split ',' settings.apiKeys = segments := by
    rw [hs]
    exact Text.split_intercalate (h.no_comma hkeys) hsegments
  rw [apiKeySet, hsplit, h.strip hkeys]

/-- Whatever the string is, the parsed keys are keys. -/
theorem isKey_of_mem_apiKeySet {settings : Settings} {key : String}
    (h : key ∈ settings.apiKeySet) : IsKey key := by
  obtain ⟨segment, hseg, rfl⟩ := List.mem_map.mp h
  obtain ⟨hseg, hne⟩ := List.mem_filter.mp hseg
  refine ⟨bne_iff_ne.mp hne, ?_, Text.trimmed_strip segment⟩
  exact fun hc => Text.not_mem_of_mem_split hseg (Text.strip_subset segment hc)

theorem apiKeySet_eq_nil_iff {settings : Settings} :
    settings.apiKeySet = [] ↔ ∀ segment ∈ Text.split ',' settings.apiKeys, Text.Blank segment := by
  simp [apiKeySet, Text.Blank, Text.strip_eq_empty_iff]

/-- `auth0_issuer`: what the token's `iss` is compared against. -/
def auth0Issuer (settings : Settings) : String := "https://" ++ settings.auth0Domain ++ "/"

/-- The environment variables `require_auth0_config` finds empty. -/
def missingAuth0 (settings : Settings) : List String :=
  (if settings.auth0Domain == "" then ["AUTH0_DOMAIN"] else []) ++
    (if settings.auth0ApiAudience == "" then ["AUTH0_API_AUDIENCE"] else [])

/-- The message of the `RuntimeError` of `require_auth0_config`. -/
def missingAuth0Message (settings : Settings) : String :=
  "Missing required Auth0 setting(s): " ++ ", ".intercalate settings.missingAuth0 ++
    ". Set them in your .env file (see .env.example) before validating bearer tokens."

/-- `require_auth0_config`: the message is that of the `RuntimeError`. -/
def requireAuth0Config (settings : Settings) : Except String Unit :=
  if settings.missingAuth0.isEmpty then .ok () else .error settings.missingAuth0Message

theorem requireAuth0Config_ok {settings : Settings} (hd : settings.auth0Domain ≠ "")
    (ha : settings.auth0ApiAudience ≠ "") : settings.requireAuth0Config = .ok () := by
  simp [requireAuth0Config, missingAuth0, hd, ha]

theorem requireAuth0Config_error {settings : Settings}
    (h : settings.auth0Domain = "" ∨ settings.auth0ApiAudience = "") :
    settings.requireAuth0Config = .error settings.missingAuth0Message := by
  rcases h with h | h <;> simp [requireAuth0Config, missingAuth0, h]

end Settings

end KgaGateway
