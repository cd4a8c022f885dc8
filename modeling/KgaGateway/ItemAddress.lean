import KgaGateway.Example
import KgaGateway.Lib.Uri

/-!
# Which resource an item id addresses

`get_item` writes the id into the path as it is, and the HTTP client reads the
path as a relative reference. For an id the route can deliver, one that is not
empty and has no slash, the target is the item's own exactly if the id has none
of the characters and forms the client gives a meaning to
(`getItem_addresses_iff`).
-/

namespace KgaGateway

/-! ## The client -/

/-- How the HTTP client turns the URL of a request into a target. The base URL
was taken apart when the client was built; a relative URL is resolved against
it, if the client accepts it at all. -/
structure UrlClient : Type where
  /-- the path of the base URL -/
  basePath : String → List String
  /-- the target of a base URL and a relative URL; none where it raises
  `InvalidURL` -/
  target : String → String → Option Uri.Target
  /-- the characters that need no encoding in a path -/
  safe : Char → Bool
  safe_of_isUnreserved : ∀ c, Uri.isUnreserved c = true → safe c = true
  target_eq : ∀ base url t, target base url = some t → t = Uri.resolve safe (basePath base) url

/-- The target is the item's: the base path, `items`, and one segment that
decodes to the id. -/
def AddressesItem (client : UrlClient) (base itemId : String) (t : Uri.Target) : Prop :=
  ∃ segment, t.path = client.basePath base ++ ["items", segment] ∧
    Uri.decode segment = Uri.utf8 itemId ∧ t.query = ""

/-- An item id the route delivers. -/
def IsItemId (itemId : String) : Prop := itemId ≠ "" ∧ '/' ∉ itemId.toList

/-- An id that means nothing to a URL: no fragment, no query, no dot segment
and no escape. -/
structure PlainId (itemId : String) : Prop where
  no_fragment : '#' ∉ itemId.toList
  no_query : '?' ∉ itemId.toList
  not_dot : itemId ≠ "."
  not_dots : itemId ≠ ".."
  no_escape : ¬ Uri.HasEscape itemId.toList

/-- An item has one id: two ids with one target are the same. -/
theorem AddressesItem.unique {client : UrlClient} {base itemId itemId' : String} {t : Uri.Target}
    (h : AddressesItem client base itemId t) (h' : AddressesItem client base itemId' t) :
    itemId = itemId' := by
  obtain ⟨segment, hpath, hdecode, -⟩ := h
  obtain ⟨segment', hpath', hdecode', -⟩ := h'
  rw [hpath] at hpath'
  obtain rfl : segment = segment' := by simpa using hpath'
  exact Uri.utf8_inj (hdecode.symm.trans hdecode')

/-! ## What the client makes of the path -/

theorem encode_items (client : UrlClient) : Uri.encode client.safe "items" = "items" := by
  have hitems : ("items".toList.all fun c => Uri.isUnreserved c && c != '%') = true := by decide
  have hchars : ∀ c ∈ "items".toList, client.safe c = true ∧ c ≠ '%' := by
    intro c hc
    obtain ⟨hsafe, hne⟩ := (Bool.and_eq_true _ _).mp (List.all_eq_true.mp hitems c hc)
    exact ⟨client.safe_of_isUnreserved c hsafe, bne_iff_ne.mp hne⟩
  rw [Uri.encode, Uri.encodeChars_eq_self hchars, String.ofList_toList]

theorem segments_items {id : String} (h : '/' ∉ id.toList) :
    Uri.segments ("/items/" ++ id) = ["items", id] := by
  have hdrop : String.ofList (("/items/" ++ id).toList.dropWhile (· == '/')) =
      "items" ++ String.ofList ['/'] ++ id := by
    rw [← String.toList_inj]
    simp
  rw [Uri.segments, hdrop, Text.split_append (by decide), Text.split_eq_singleton h]

/-- The path the client makes of an id: what comes before a fragment or a query
is pushed onto the items. -/
theorem resolve_item_path (client : UrlClient) (base : List String) {itemId : String}
    (h : '/' ∉ itemId.toList) :
    (Uri.resolve client.safe base ("/items/" ++ itemId)).path =
      Uri.push client.safe (base ++ ["items"]) (Uri.stem itemId) := by
  have hitems : Uri.push client.safe base "items" = base ++ ["items"] := by
    rw [Uri.push, if_neg (by decide), if_neg (by decide), encode_items]
  have hstem : '/' ∉ (Uri.stem itemId).toList := fun hmem => h (Uri.stem_subset itemId hmem)
  rw [Uri.resolve_path, Uri.stem_append (by decide) (by decide), segments_items hstem,
    List.foldl_cons, List.foldl_cons, List.foldl_nil, hitems]

/-- **The target is the item's exactly for plain ids.** A fragment or a query
shortens the segment, an escape shortens what it decodes to, and a dot segment
shortens the path. -/
theorem addressesItem_resolve_iff (client : UrlClient) (base : String) {itemId : String}
    (h : '/' ∉ itemId.toList) :
    AddressesItem client base itemId
        (Uri.resolve client.safe (client.basePath base) ("/items/" ++ itemId)) ↔
      PlainId itemId := by
  have hpath := resolve_item_path client (client.basePath base) h
  constructor
  · rintro ⟨segment, hsegment, hdecode, -⟩
    rw [hpath] at hsegment
    rcases Uri.push_cases client.safe (client.basePath base ++ ["items"]) (Uri.stem itemId) with
      ⟨hdot, hdots, hpush⟩ | ⟨-, hlength⟩
    · rw [hpush] at hsegment
      obtain rfl : segment = Uri.encode client.safe (Uri.stem itemId) := by
        simpa using hsegment.symm
      rw [Uri.decode_encode] at hdecode
      rcases Uri.stem_cases itemId with ⟨hfragment, hquery, hstem⟩ | ⟨-, hlt⟩
      · rw [hstem] at hdot hdots hdecode
        exact ⟨hfragment, hquery, hdot, hdots, Uri.decode_eq_utf8_iff.mp hdecode⟩
      · -- the segment is too short for the id
        have hle := Uri.length_decode_le (Uri.stem itemId).toList
        rw [← Uri.decode, ← Uri.utf8, hdecode] at hle
        omega
    · rw [hsegment] at hlength
      simp at hlength
  · intro hplain
    have hstem : Uri.stem itemId = itemId := by
      rcases Uri.stem_cases itemId with ⟨-, -, hstem⟩ | ⟨-, hlt⟩
      · exact hstem
      · rw [Uri.stem, Text.partition_of_not_mem hplain.no_fragment,
          Text.partition_of_not_mem hplain.no_query] at hlt
        exact absurd hlt (lt_irrefl _)
    refine ⟨Uri.encode client.safe itemId, ?_, ?_, ?_⟩
    · rw [hpath, hstem, Uri.push, if_neg hplain.not_dot, if_neg hplain.not_dots,
        List.append_assoc]
      rfl
    · rw [Uri.decode_encode]
      exact Uri.decode_eq_utf8_iff.mpr hplain.no_escape
    · exact Uri.resolve_query (by simp [hplain.no_fragment]) (by simp [hplain.no_query]) _ _

/-! ## The request of `get_item` -/

namespace ExampleService

/-- What `get_item` owes for an id: wherever the client takes its request, the
target is the item's. -/
def AddressesIt (client : UrlClient) (provider : ProviderRequest → ProviderOutcome)
    (service : ExampleService) (itemId : String) : Prop :=
  ∀ req, Event.send req ∈ (service.getItem provider itemId).trace →
    ∀ t, client.target req.base req.path = some t → AddressesItem client req.base itemId t

theorem send_mem_getItem_iff {provider : ProviderRequest → ProviderOutcome}
    {service : ExampleService} {itemId : String} {req : ProviderRequest} :
    Event.send req ∈ (service.getItem provider itemId).trace ↔
      req = ⟨service.baseUrl, "GET", "/items/" ++ itemId, [], none⟩ := by
  rw [getItem, request_eq]
  simp

/-- **An id addresses its item exactly** if the client refuses its URL or the
id means nothing to a URL. Two ids for which the code keeps its promise never
share a target. -/
theorem getItem_addresses_iff (client : UrlClient)
    (provider : ProviderRequest → ProviderOutcome) (service : ExampleService) :
    (∀ itemId, IsItemId itemId →
      (AddressesIt client provider service itemId ↔
        client.target service.baseUrl ("/items/" ++ itemId) = none ∨ PlainId itemId)) ∧
    (∀ itemId itemId', PlainId itemId → PlainId itemId' → IsItemId itemId → IsItemId itemId' →
      ∀ t, client.target service.baseUrl ("/items/" ++ itemId) = some t →
        client.target service.baseUrl ("/items/" ++ itemId') = some t → itemId = itemId') := by
  have htarget : ∀ itemId, IsItemId itemId →
      ∀ t, client.target service.baseUrl ("/items/" ++ itemId) = some t →
        (AddressesItem client service.baseUrl itemId t ↔ PlainId itemId) := by
    intro itemId hid t ht
    rw [client.target_eq _ _ _ ht]
    exact addressesItem_resolve_iff client service.baseUrl hid.2
  refine ⟨?_, ?_⟩
  · intro itemId hid
    have hsent : AddressesIt client provider service itemId ↔
        ∀ t, client.target service.baseUrl ("/items/" ++ itemId) = some t →
          AddressesItem client service.baseUrl itemId t := by
      constructor
      · intro h
        exact h _ (send_mem_getItem_iff.mpr rfl)
      · intro h req hreq
        rw [send_mem_getItem_iff.mp hreq]
        exact h
    rw [hsent]
    cases ht : client.target service.baseUrl ("/items/" ++ itemId) with
    | none => simp
    | some t => simp [htarget itemId hid t ht]
  · intro itemId itemId' hplain hplain' hid hid' t ht ht'
    exact ((htarget itemId hid t ht).mpr hplain).unique ((htarget itemId' hid' t ht').mpr hplain')

/-- A client that resolves every URL, with the base URL cut at its slashes. -/
def slashClient : UrlClient where
  basePath base := (Text.split '/' base).drop 3
  target base url := some (Uri.resolve Uri.isUnreserved ((Text.split '/' base).drop 3) url)
  safe := Uri.isUnreserved
  safe_of_isUnreserved _ h := h
  target_eq _ _ _ h := (Option.some.inj h).symm

/-- `..` leaves the items: the request goes to the base path itself. -/
theorem addressesIt_fails_on_dots :
    IsItemId ".." ∧
    slashClient.target "https://api.example.com/v1" ("/items/" ++ "..") = some ⟨["v1"], ""⟩ ∧
    ¬ AddressesIt slashClient (fun _ => .httpError) ⟨"https://api.example.com/v1"⟩ ".." := by
  have htarget : slashClient.target "https://api.example.com/v1" ("/items/" ++ "..") =
      some ⟨["v1"], ""⟩ := by decide
  refine ⟨⟨by decide, by decide⟩, htarget, fun h => ?_⟩
  obtain ⟨segment, hpath, -, -⟩ := h _ (send_mem_getItem_iff.mpr rfl) _ htarget
  have hlength := congrArg List.length hpath
  simp at hlength

end ExampleService

end KgaGateway
