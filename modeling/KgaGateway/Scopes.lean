import KgaGateway.Lib.Text
import Mathlib.Tactic.Common

/-!
# The scope registry

`app/auth/scopes.py`: the registered scope strings, the parser of a scope and
the decision `satisfies` that every scope gate rests on. A scope is
`<domain>:<action>` (domain-wide) or `<domain>:<provider>:<action>`.

The decision works on parsed scopes and on strings that did not come from the
registry at all (real tokens carry any OAuth scope), so the results about it
are stated over arbitrary strings, in `Entailment.lean`.
-/

namespace KgaGateway

/-- The `ValueError`s of the authorization layer, each with the data its
message shows. -/
inductive ValueError : Type where
  /-- raised by `parse`: neither two nor three parts -/
  | malformedScope : String → ValueError
  /-- raised by `requireScopes` when it is called with unregistered scopes -/
  | unknownScopes : List String → ValueError
  deriving DecidableEq

namespace Scopes

/-! ## The registry -/

def finance : String := "finance"
def csc : String := "csc"
def legal : String := "legal"
def audit : String := "audit"
def hr : String := "hr"

/-- Domains in the registry without routes. -/
def reservedDomains : List String := [csc, legal, audit, hr]

def xero : String := "xero"
def netcash : String := "netcash"
def investec : String := "investec"

def financeProviders : List String := [xero, netcash, investec]

def read : String := "read"
def write : String := "write"

def actions : List String := [read, write]

/-- The scope string of a domain-wide grant. -/
def domainScope (domain action : String) : String := domain ++ ":" ++ action

/-- The scope string of a provider grant. -/
def providerScope (domain provider action : String) : String :=
  domain ++ ":" ++ provider ++ ":" ++ action

/-- Every buildable `finance` scope: domain-wide supersets and provider leaves. -/
def financeScopes : List String :=
  actions.map (domainScope finance) ++
    financeProviders.flatMap fun provider => actions.map (providerScope finance provider)

/-- Domain-wide read and write for each reserved domain. -/
def reservedScopes : List String :=
  reservedDomains.flatMap fun domain => actions.map (domainScope domain)

/-- The complete registry. -/
def knownScopes : List String := financeScopes ++ reservedScopes

/-! ## The decision -/

/-- A scope taken apart: `provider` is `none` for a domain-wide scope. -/
@[ext] structure Parsed : Type where
  domain : String
  provider : Option String
  action : String
  deriving DecidableEq

/-- `_parse`: two parts are a domain-wide scope, three a provider scope. -/
def parse (scope : String) : Except ValueError Parsed :=
  match Text.split ':' scope with
  | [domain, action] => .ok ⟨domain, none, action⟩
  | [domain, provider, action] => .ok ⟨domain, some provider, action⟩
  | _ => .error (.malformedScope scope)

/-- `_grant_satisfies`: does one parsed grant cover the parsed requirement? -/
def grantSatisfies (granted required : Parsed) : Bool :=
  if granted.domain != required.domain then false
  -- a domain-wide grant covers any provider
  else if granted.provider.isSome && granted.provider != required.provider then false
  -- `write` covers `read`, and no other action
  else granted.action == required.action ||
    (granted.action == write && required.action == read)

/-- The loop of `satisfies`: grants that do not parse are skipped. -/
def anySatisfies (required : Parsed) : List String → Bool
  | [] => false
  | scope :: rest =>
    match parse scope with
    | .error _ => anySatisfies required rest
    | .ok granted => if grantSatisfies granted required then true else anySatisfies required rest

/-- `satisfies`: does any granted scope cover `required`? Only a malformed
`required` raises. -/
def satisfies (granted : List String) (required : String) : Except ValueError Bool := do
  let parsed ← parse required
  return anySatisfies parsed granted

/-! ## What the parser accepts -/

/-- No colon in it: what a component of a scope is. -/
def ColonFree (s : String) : Prop := ':' ∉ s.toList

instance (s : String) : Decidable (ColonFree s) := inferInstanceAs (Decidable (_ ∉ _))

/-- The string of a parsed scope. -/
def render (p : Parsed) : String :=
  match p.provider with
  | none => domainScope p.domain p.action
  | some provider => providerScope p.domain provider p.action

/-- The components of a parsed scope are colon-free. -/
def Parsed.ColonFree (p : Parsed) : Prop :=
  Scopes.ColonFree p.domain ∧ (∀ provider ∈ p.provider, Scopes.ColonFree provider) ∧
    Scopes.ColonFree p.action

theorem parse_domainScope {d a : String} (hd : ColonFree d) (ha : ColonFree a) :
    parse (domainScope d a) = .ok ⟨d, none, a⟩ := by
  have hsplit : Text.split ':' (domainScope d a) = [d, a] := by
    have := Text.split_append hd a
    rw [Text.split_eq_singleton ha] at this
    exact this
  rw [parse, hsplit]

theorem parse_providerScope {d p a : String} (hd : ColonFree d) (hp : ColonFree p)
    (ha : ColonFree a) : parse (providerScope d p a) = .ok ⟨d, some p, a⟩ := by
  have hassoc : providerScope d p a =
      d ++ String.ofList [':'] ++ (p ++ String.ofList [':'] ++ a) := by
    simp [providerScope, String.append_assoc]
  have hsplit : Text.split ':' (providerScope d p a) = [d, p, a] := by
    rw [hassoc, Text.split_append hd, Text.split_append hp, Text.split_eq_singleton ha]
  rw [parse, hsplit]

/-- Parsing inverts rendering. -/
theorem parse_render {p : Parsed} (h : p.ColonFree) : parse (render p) = .ok p := by
  obtain ⟨d, provider, a⟩ := p
  obtain ⟨hd, hp, ha⟩ := h
  cases provider with
  | none => exact parse_domainScope hd ha
  | some provider => exact parse_providerScope hd (hp provider rfl) ha

/-- **The parser's classification** of an arbitrary string: it is the
rendering of a parsed scope with colon-free components, or it is rejected and
has no colon or more than two. -/
theorem parse_cases (s : String) :
    (∃ p : Parsed, p.ColonFree ∧ s = render p ∧ parse s = .ok p) ∨
      (parse s = .error (.malformedScope s) ∧
        (s.toList.count ':' = 0 ∨ 2 < s.toList.count ':')) := by
  rcases Text.cut_cases ':' s with h | ⟨d, s₁, hd, rfl⟩
  · -- no colon: a single part
    refine Or.inr ⟨?_, Or.inl (List.count_eq_zero.mpr h)⟩
    rw [parse, Text.split_eq_singleton h]
  rcases Text.cut_cases ':' s₁ with h₁ | ⟨p, s₂, hp, rfl⟩
  · exact Or.inl ⟨⟨d, none, s₁⟩, ⟨hd, by simp, h₁⟩, rfl, parse_domainScope hd h₁⟩
  rcases Text.cut_cases ':' s₂ with h₂ | ⟨a, s₃, ha, rfl⟩
  · have hs : d ++ String.ofList [':'] ++ (p ++ String.ofList [':'] ++ s₂) =
        providerScope d p s₂ := by
      simp [providerScope, String.append_assoc]
    rw [hs]
    refine Or.inl ⟨⟨d, some p, s₂⟩, ⟨hd, ?_, h₂⟩, rfl, parse_providerScope hd hp h₂⟩
    rintro provider ⟨⟩
    exact hp
  · -- three colons at least: four parts at least
    refine Or.inr ⟨?_, Or.inr ?_⟩
    · obtain ⟨w, ws, hw⟩ := List.exists_cons_of_ne_nil
        (show Text.split ':' s₃ ≠ [] by simp [Text.split])
      rw [parse, Text.split_append hd, Text.split_append hp, Text.split_append ha, hw]
    · simp
      omega

/-- The parser accepts exactly the strings with one or two colons. -/
def WellFormed (s : String) : Prop := s.toList.count ':' = 1 ∨ s.toList.count ':' = 2

instance (s : String) : Decidable (WellFormed s) := inferInstanceAs (Decidable (_ ∨ _))

theorem count_render {p : Parsed} (h : p.ColonFree) : WellFormed (render p) := by
  obtain ⟨d, provider, a⟩ := p
  obtain ⟨hd, hp, ha⟩ := h
  have hd' : d.toList.count ':' = 0 := List.count_eq_zero.mpr hd
  have ha' : a.toList.count ':' = 0 := List.count_eq_zero.mpr ha
  cases provider with
  | none =>
    left
    simp [render, domainScope, hd', ha']
  | some provider =>
    have hp' : provider.toList.count ':' = 0 := List.count_eq_zero.mpr (hp provider rfl)
    right
    simp [render, providerScope, hd', hp', ha']

/-- A well-formed string parses to the scope it renders. -/
theorem parse_of_wellFormed {s : String} (h : WellFormed s) :
    ∃ p : Parsed, p.ColonFree ∧ s = render p ∧ parse s = .ok p := by
  rcases parse_cases s with hp | ⟨-, hc⟩
  · exact hp
  · rcases h with h | h <;> omega

theorem parse_of_not_wellFormed {s : String} (h : ¬ WellFormed s) :
    parse s = .error (.malformedScope s) := by
  rcases parse_cases s with ⟨p, hp, rfl, -⟩ | ⟨herr, -⟩
  · exact absurd (count_render hp) h
  · exact herr

/-- Inversion: what a successful parse says about the string. -/
theorem parse_eq_ok {s : String} {p : Parsed} (h : parse s = .ok p) :
    p.ColonFree ∧ s = render p := by
  rcases parse_cases s with ⟨q, hq, hs, hparse⟩ | ⟨herr, -⟩
  · rw [hparse] at h
    obtain rfl := Except.ok.inj h
    exact ⟨hq, hs⟩
  · rw [herr] at h
    cases h

theorem wellFormed_of_parse {s : String} {p : Parsed} (h : parse s = .ok p) : WellFormed s := by
  obtain ⟨hp, rfl⟩ := parse_eq_ok h
  exact count_render hp

/-! ## The loop -/

theorem anySatisfies_cons_error {required : Parsed} {scope : String} {rest : List String}
    {e : ValueError} (h : parse scope = .error e) :
    anySatisfies required (scope :: rest) = anySatisfies required rest := by
  rw [anySatisfies, h]

theorem anySatisfies_cons_ok {required p : Parsed} {scope : String} {rest : List String}
    (h : parse scope = .ok p) :
    anySatisfies required (scope :: rest) =
      (grantSatisfies p required || anySatisfies required rest) := by
  simp only [anySatisfies, h]
  cases grantSatisfies p required <;> rfl

/-- The loop finds a grant that parses and covers, if there is one: the order
of the grants, their repetitions and the malformed ones play no part. -/
theorem anySatisfies_iff (required : Parsed) (granted : List String) :
    anySatisfies required granted = true ↔
      ∃ g ∈ granted, ∃ p, parse g = .ok p ∧ grantSatisfies p required = true := by
  induction granted with
  | nil => simp [anySatisfies]
  | cons scope rest ih =>
    simp only [List.exists_mem_cons_iff, ← ih]
    rcases hparse : parse scope with e | p
    · rw [anySatisfies_cons_error hparse]
      simp
    · rw [anySatisfies_cons_ok hparse, Bool.or_eq_true]
      simp

theorem satisfies_of_parse {r : String} {p : Parsed} (h : parse r = .ok p)
    (granted : List String) : satisfies granted r = .ok (anySatisfies p granted) := by
  simp [satisfies, h, bind, Except.bind, pure, Except.pure]

theorem satisfies_of_not_wellFormed {r : String} (h : ¬ WellFormed r) (granted : List String) :
    satisfies granted r = .error (.malformedScope r) := by
  simp [satisfies, parse_of_not_wellFormed h, bind, Except.bind]

end Scopes

end KgaGateway
