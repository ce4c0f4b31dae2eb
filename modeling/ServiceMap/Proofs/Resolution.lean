import Mathlib
import ServiceMap.Reference.Resolution

/-! What a call reaches. It is the offer of a registered service, and of the APIs that the target
reaches the one with the longest name; of several such, the first in the order of the registry. -/

namespace ServiceMap

/-- A member of the joined lists, with what stands before and after it. -/
theorem flatMap_eq_append_cons {α β : Type} {f : α → List β} {l : List α} {before after : List β}
    {b : β} (h : l.flatMap f = before ++ b :: after) :
    ∃ front a back init rest, l = front ++ a :: back ∧ f a = init ++ b :: rest ∧
      before = front.flatMap f ++ init ∧ after = rest ++ back.flatMap f := by
  rw [List.flatMap_def, List.flatten_eq_append_iff] at h
  obtain ⟨fronts, init, rest, backs, parts, rfl, rfl⟩ : ∃ fronts init rest backs,
      l.map f = fronts ++ (init ++ b :: rest) :: backs ∧
        before = fronts.flatten ++ init ∧ after = rest ++ backs.flatten := by
    rcases h with ⟨fronts, tail, parts, rfl, behind⟩ | ⟨fronts, init, c, rest, backs, parts, rfl, behind⟩
    · obtain ⟨bare, rest, backs, rfl, none, rfl⟩ := List.flatten_eq_cons_iff.1 behind.symm
      have none : bare.flatten = [] := List.flatten_eq_nil_iff.2 none
      exact ⟨fronts ++ bare, [], rest, backs, by simp [parts], by simp [none], rfl⟩
    · obtain ⟨rfl, rfl⟩ := List.cons.inj behind
      exact ⟨fronts, init, rest, backs, parts, rfl, rfl⟩
  obtain ⟨front, tail, rfl, rfl, behind⟩ := List.map_eq_append_iff.1 parts
  obtain ⟨a, back, rfl, here, rfl⟩ := List.map_eq_cons_iff.1 behind
  exact ⟨front, a, back, init, rest, rfl, here, rfl, rfl⟩

namespace Offer

variable {offers : List Offer} {o : Offer}

/-- The offer is the longest, and those before it are shorter. -/
def Leads (o : Offer) (before after : List Offer) : Prop :=
  (∀ b ∈ before, b.name.length < o.name.length) ∧ ∀ b ∈ after, b.name.length ≤ o.name.length

theorem Leads.le {before after : List Offer} (h : o.Leads before after) {p : Offer}
    (hp : p ∈ before ++ o :: after) : p.name.length ≤ o.name.length := by
  rcases List.mem_append.1 hp with hp | hp
  · exact Nat.le_of_lt (h.1 p hp)
  · rcases List.mem_cons.1 hp with rfl | hp
    · exact Nat.le_refl _
    · exact h.2 p hp

theorem longest?_eq_none : longest? offers = none ↔ offers = [] := by
  cases offers with
  | nil => simp [longest?]
  | cons o offers =>
    simp only [longest?, reduceCtorEq, iff_false]
    split
    · split <;> simp
    · simp

theorem exists_leads (h : longest? offers = some o) :
    ∃ before after, offers = before ++ o :: after ∧ o.Leads before after := by
  induction offers generalizing o with
  | nil => simp [longest?] at h
  | cons first rest ih =>
    rw [longest?] at h
    cases later : longest? rest with
    | none =>
      obtain rfl := longest?_eq_none.1 later
      obtain rfl : first = o := by simpa [later] using h
      exact ⟨[], [], rfl, by simp [Leads]⟩
    | some best =>
      obtain ⟨before, after, rfl, leads⟩ := ih later
      simp only [later] at h
      split at h
      · next lt =>
        cases h
        exact ⟨first :: before, after, rfl, List.forall_mem_cons.2 ⟨lt, leads.1⟩, leads.2⟩
      · next le =>
        cases h
        exact ⟨[], _, rfl, by simp, fun b hb => Nat.le_trans (leads.le hb) (Nat.le_of_not_lt le)⟩

theorem longest?_of_leads {before after : List Offer} (h : o.Leads before after) :
    longest? (before ++ o :: after) = some o := by
  induction before with
  | nil =>
    rw [List.nil_append, longest?]
    cases later : longest? after with
    | none => rfl
    | some best =>
      obtain ⟨_, _, rfl, -⟩ := exists_leads later
      have le : best.name.length ≤ o.name.length := h.2 best (by simp)
      exact if_neg (Nat.not_lt_of_le le)
  | cons first before ih =>
    obtain ⟨lt, shorter⟩ := List.forall_mem_cons.1 h.1
    rw [List.cons_append, longest?, ih ⟨shorter, h.2⟩]
    exact if_pos lt

theorem mem_of_longest? (h : longest? offers = some o) : o ∈ offers := by
  obtain ⟨before, after, rfl, -⟩ := exists_leads h
  simp

/-- The first of the longest among the offers that are let through. -/
theorem longest?_filter_eq_some_iff {ok : Offer → Bool} : longest? (offers.filter ok) = some o ↔
    ∃ before after, offers = before ++ o :: after ∧ ok o = true ∧
      (∀ b ∈ offers, ok b = true → b.name.length ≤ o.name.length) ∧
        ∀ b ∈ before, ok b = true → b.name.length < o.name.length := by
  constructor
  · intro h
    obtain ⟨short, long, kept, leads⟩ := exists_leads h
    have longest : ∀ b ∈ offers, ok b = true → b.name.length ≤ o.name.length := fun b hb pass =>
      leads.le (kept ▸ List.mem_filter.2 ⟨hb, pass⟩)
    obtain ⟨before, rest, rfl, rfl, behind⟩ := List.filter_eq_append_iff.1 kept
    obtain ⟨skipped, after, rfl, fail, pass, rfl⟩ := List.filter_eq_cons_iff.1 behind
    refine ⟨before ++ skipped, after, by simp, pass, longest, fun b hb passes => ?_⟩
    rcases List.mem_append.1 hb with hb | hb
    · exact leads.1 b (List.mem_filter.2 ⟨hb, passes⟩)
    · exact absurd passes (fail b hb)
  · rintro ⟨before, after, rfl, pass, longest, shorter⟩
    rw [List.filter_append, List.filter_cons_of_pos pass]
    refine longest?_of_leads ⟨fun b hb => ?_, fun b hb => ?_⟩
    · exact shorter b (List.mem_filter.1 hb).1 (List.mem_filter.1 hb).2
    · exact longest b (by simp [(List.mem_filter.1 hb).1]) (List.mem_filter.1 hb).2

/-- What comes later wins only by a longer name. -/
theorem longest?_append (more : List Offer) (h : longest? offers = some o) :
    longest? (offers ++ more) = some o ∨
      ∃ p, longest? (offers ++ more) = some p ∧ o.name.length < p.name.length := by
  obtain ⟨before, after, rfl, shorter, longest⟩ := exists_leads h
  rw [List.append_assoc, List.cons_append]
  by_cases top : ∀ p ∈ more, p.name.length ≤ o.name.length
  · refine .inl (longest?_of_leads ⟨shorter, fun b hb => ?_⟩)
    exact (List.mem_append.1 hb).elim (longest b) (top b)
  · right
    obtain ⟨p, hp, longer⟩ : ∃ p ∈ more, o.name.length < p.name.length := by simpa using top
    cases best : longest? (before ++ o :: (after ++ more)) with
    | none => simp [longest?_eq_none] at best
    | some q =>
      obtain ⟨front, back, all, leads⟩ := exists_leads best
      have hp : p ∈ front ++ q :: back := by simp [← all, hp]
      exact ⟨q, rfl, Nat.lt_of_lt_of_le longer (leads.le hp)⟩

end Offer

namespace Target

/-- The segments of the API stand in a row in the target. -/
def Reaches (target api : String) : Prop :=
  segments (normalize api.toList) ≠ [] ∧
    segments (normalize api.toList) <:+: segments (normalize target.toList)

/-- How long the name of an API is once it is cut down to its path. -/
def nameLength (api : String) : Nat := (normalize api.toList).length

end Target

open Target

namespace Service

def offer (s : Service) (api : String) : Offer := ⟨s.name, api, normalize api.toList⟩

def offers (s : Service) : List Offer := s.provides.map s.offer

variable {s : Service} {api target : String}

theorem length_offer_name : (s.offer api).name.length = nameLength api := by
  simp only [offer, nameLength]

theorem meets_offer :
    (s.offer api).meets (segments (normalize target.toList)) = true ↔ Reaches target api := by
  rw [Offer.meets, Offer.segments, offer, containsRun_iff, Reaches]

/-- What holds of the offers that a target meets is told of the APIs that it reaches. -/
theorem forall_offers {P : Nat → Prop} :
    (∀ o ∈ s.offers, o.meets (segments (normalize target.toList)) = true → P o.name.length) ↔
      ∀ api ∈ s.provides, Reaches target api → P (nameLength api) := by
  simp only [offers, List.forall_mem_map, meets_offer, length_offer_name]

end Service

namespace Registry

variable {r : Registry} {target : String} {x : Resolution}

theorem offers_eq (r : Registry) : r.offers = r.services.flatMap Service.offers := rfl

theorem mem_offers {o : Offer} (h : o ∈ r.offers) :
    ∃ s ∈ r.services, s.name = o.provider ∧ o.api ∈ s.provides := by
  obtain ⟨s, hs, ho⟩ := List.mem_flatMap.1 h
  obtain ⟨api, listed, rfl⟩ := List.mem_map.1 ho
  exact ⟨s, hs, rfl, listed⟩

theorem length_name_of_mem_offers {o : Offer} (h : o ∈ r.offers) : o.name.length = nameLength o.api := by
  obtain ⟨s, -, ho⟩ := List.mem_flatMap.1 h
  obtain ⟨api, -, rfl⟩ := List.mem_map.1 ho
  exact Service.length_offer_name

theorem provided_of_resolve? (h : r.resolve? target = some x) :
    ∃ s ∈ r.services, s.name = x.provider ∧ x.api ∈ s.provides := by
  obtain ⟨o, best, rfl⟩ := Option.map_eq_some_iff.1 h
  exact mem_offers (List.mem_filter.1 (Offer.mem_of_longest? best)).1

theorem resolve?_eq_none_iff : r.resolve? target = none ↔
    ∀ s ∈ r.services, ∀ api ∈ s.provides, ¬ Reaches target api := by
  have none : (∀ o ∈ r.offers, o.meets (segments (normalize target.toList)) = true → False) ↔
      ∀ s ∈ r.services, ∀ api ∈ s.provides, Reaches target api → False := by
    simp only [offers_eq, List.forall_mem_flatMap, Service.forall_offers (P := fun _ => False)]
  rw [resolve?, Option.map_eq_none_iff, Offer.longest?_eq_none, List.filter_eq_nil_iff]
  exact none

/-- The API is the first of the longest that the target reaches, in the order of the registry. -/
structure FirstLongest (r : Registry) (target : String) (earlier : List Service) (front : List String)
    (api : String) : Prop where
  reaches : Reaches target api
  longest : ∀ t ∈ r.services, ∀ a ∈ t.provides, Reaches target a → nameLength a ≤ nameLength api
  afterServices : ∀ t ∈ earlier, ∀ a ∈ t.provides, Reaches target a → nameLength a < nameLength api
  afterListed : ∀ a ∈ front, Reaches target a → nameLength a < nameLength api

theorem offers_split {earlier later : List Service} {s : Service} {front back : List String}
    {api : String} (services : r.services = earlier ++ s :: later)
    (provides : s.provides = front ++ api :: back) :
    r.offers = (earlier.flatMap Service.offers ++ front.map s.offer) ++
      s.offer api :: (back.map s.offer ++ later.flatMap Service.offers) := by
  simp [offers_eq, Service.offers, services, provides]

theorem exists_of_offers {before after : List Offer} {o : Offer}
    (h : r.offers = before ++ o :: after) :
    ∃ earlier s later front api back, r.services = earlier ++ s :: later ∧
      s.provides = front ++ api :: back ∧ o = s.offer api ∧
      before = earlier.flatMap Service.offers ++ front.map s.offer := by
  obtain ⟨earlier, s, later, init, rest, services, offered, rfl, -⟩ :=
    flatMap_eq_append_cons ((offers_eq r).symm.trans h)
  obtain ⟨front, tail, provides, rfl, behind⟩ := List.map_eq_append_iff.1 offered
  obtain ⟨api, back, rfl, rfl, rfl⟩ := List.map_eq_cons_iff.1 behind
  exact ⟨earlier, s, later, front, api, back, services, provides, rfl, rfl⟩

theorem firstLongest_iff {s : Service} {earlier : List Service} {front : List String} {api : String} :
    r.FirstLongest target earlier front api ↔
      let met (o : Offer) := o.meets (segments (normalize target.toList))
      met (s.offer api) = true ∧
        (∀ o ∈ r.offers, met o = true → o.name.length ≤ (s.offer api).name.length) ∧
          ∀ o ∈ earlier.flatMap Service.offers ++ front.map s.offer, met o = true →
            o.name.length < (s.offer api).name.length := by
  have listed : (∀ o ∈ front.map s.offer, o.meets (segments (normalize target.toList)) = true →
      o.name.length < nameLength api) ↔ ∀ a ∈ front, Reaches target a → nameLength a < nameLength api := by
    simp only [List.forall_mem_map, Service.meets_offer, Service.length_offer_name]
  simp only [Service.meets_offer, Service.length_offer_name, offers_eq, List.forall_mem_append,
    List.forall_mem_flatMap, Service.forall_offers (P := (· ≤ nameLength api)),
    Service.forall_offers (P := (· < nameLength api)), listed]
  exact ⟨fun h => ⟨h.reaches, h.longest, h.afterServices, h.afterListed⟩,
    fun ⟨reaches, longest, services, front⟩ => ⟨reaches, longest, services, front⟩⟩

theorem resolve?_eq_some_iff : r.resolve? target = some x ↔
    ∃ earlier s later front api back, r.services = earlier ++ s :: later ∧
      s.provides = front ++ api :: back ∧ x = ⟨s.name, api⟩ ∧
      r.FirstLongest target earlier front api := by
  rw [resolve?, Option.map_eq_some_iff]
  constructor
  · rintro ⟨o, best, rfl⟩
    obtain ⟨before, after, offers, first⟩ := Offer.longest?_filter_eq_some_iff.1 best
    obtain ⟨earlier, s, later, front, api, back, services, provides, rfl, rfl⟩ := exists_of_offers offers
    exact ⟨earlier, s, later, front, api, back, services, provides, rfl, firstLongest_iff.2 first⟩
  · rintro ⟨earlier, s, later, front, api, back, services, provides, rfl, first⟩
    exact ⟨s.offer api, Offer.longest?_filter_eq_some_iff.2
      ⟨_, _, offers_split services provides, firstLongest_iff.1 first⟩, rfl⟩

/-- More services behind the last one, and more APIs of the last one. -/
inductive Extends (r : Registry) : Registry → Prop
  | services (more : List Service) : r.Extends { r with services := r.services ++ more }
  | apis {earlier : List Service} {s : Service} (last : r.services = earlier ++ [s])
    (apis : List String) (more : List Service) :
    r.Extends { r with services := earlier ++ { s with provides := s.provides ++ apis } :: more }

theorem Extends.offers {longer : Registry} (h : r.Extends longer) : r.offers <+: longer.offers := by
  cases h with
  | services more => simp [offers_eq]
  | @apis earlier s last apis more =>
    refine ⟨apis.map s.offer ++ more.flatMap Service.offers, ?_⟩
    have same : { s with provides := s.provides ++ apis }.offer = s.offer := rfl
    simp [offers_eq, last, Service.offers, same]

theorem Extends.resolve? {longer : Registry} (h : r.Extends longer) (found : r.resolve? target = some x) :
    longer.resolve? target = some x ∨
      ∃ y, longer.resolve? target = some y ∧ nameLength x.api < nameLength y.api := by
  let met (o : Offer) := o.meets (segments (normalize target.toList))
  obtain ⟨more, offers⟩ := h.offers
  obtain ⟨o, best, rfl⟩ := Option.map_eq_some_iff.1 found
  have later : Offer.longest? (longer.offers.filter met) =
      Offer.longest? (r.offers.filter met ++ more.filter met) := by rw [← List.filter_append, offers]
  rcases Offer.longest?_append (more.filter met) best with same | ⟨p, other, lt⟩
  · exact .inl (Option.map_eq_some_iff.2 ⟨o, later.trans same, rfl⟩)
  · refine .inr ⟨⟨p.provider, p.api⟩, Option.map_eq_some_iff.2 ⟨p, later.trans other, rfl⟩, ?_⟩
    have ho : o ∈ r.offers := (List.mem_filter.1 (Offer.mem_of_longest? best)).1
    have hp : p ∈ longer.offers := (List.mem_filter.1 (Offer.mem_of_longest? (later.trans other))).1
    rwa [length_name_of_mem_offers ho, length_name_of_mem_offers hp] at lt

/-- A target that reaches no API is left unresolved. Any other is resolved to the first of the longest
APIs that it reaches, and what is registered later can only replace that by a longer one. -/
theorem resolves_longest (r : Registry) (target : String) :
    (r.resolve? target = none ↔ segments (normalize target.toList) = [] ∨
        ∀ s ∈ r.services, ∀ api ∈ s.provides, ¬ Reaches target api) ∧
      (∀ x, r.resolve? target = some x ↔
        ∃ earlier s later front api back, r.services = earlier ++ s :: later ∧
          s.provides = front ++ api :: back ∧ x = ⟨s.name, api⟩ ∧
          r.FirstLongest target earlier front api) ∧
      ∀ longer, r.Extends longer → ∀ x, r.resolve? target = some x →
        longer.resolve? target = some x ∨
          ∃ y, longer.resolve? target = some y ∧ nameLength x.api < nameLength y.api := by
  refine ⟨?_, fun x => resolve?_eq_some_iff, fun longer h x found => h.resolve? found⟩
  rw [resolve?_eq_none_iff]
  refine ⟨.inr, fun h => h.elim (fun bare s _ api _ reaches => ?_) id⟩
  -- a run of segments does not fit into none
  obtain ⟨some, run⟩ := reaches
  rw [bare, List.infix_nil] at run
  exact some run

def peopleService : Service :=
  ⟨"people", .go, ⟨"/p"⟩, ⟨"p"⟩, ⟨none, none, false⟩, ["jobs", "/users"], [], []⟩

def accountsService : Service :=
  ⟨"accounts", .ruby, ⟨"/a"⟩, ⟨"a"⟩, ⟨none, none, false⟩, ["users/"], [], []⟩

/-- Two services that provide one API in two spellings. -/
def usersRegistry : Registry := ⟨⟨"/"⟩, [peopleService, accountsService]⟩

/-- The second service provides a part of it in addition. -/
def wideRegistry : Registry :=
  { usersRegistry with services := [peopleService] ++ [{ accountsService with provides := ["users/", "users/é"] }] }

/-- The service that comes first wins, until there is a longer API. -/
theorem resolves_longest_users :
    let target := "http://host/v1/users/é?all=1"
    usersRegistry.Extends wideRegistry ∧ usersRegistry.resolve? target = some ⟨"people", "/users"⟩ ∧
      (∃ earlier s later front api back, usersRegistry.services = earlier ++ s :: later ∧
        s.provides = front ++ api :: back ∧ (⟨"people", "/users"⟩ : Resolution) = ⟨s.name, api⟩ ∧
        usersRegistry.FirstLongest target earlier front api) ∧
      ∃ y, wideRegistry.resolve? target = some y ∧ nameLength "/users" < nameLength y.api := by
  intro target
  have extends_ : usersRegistry.Extends wideRegistry := .apis rfl ["users/é"] []
  have found : usersRegistry.resolve? target = some ⟨"people", "/users"⟩ := by cbv
  have wider : wideRegistry.resolve? target = some ⟨"accounts", "users/é"⟩ := by cbv
  obtain ⟨-, chosen, later⟩ := usersRegistry.resolves_longest target
  refine ⟨extends_, found, (chosen _).1 found, ?_⟩
  refine (later _ extends_ _ found).resolve_left fun same => ?_
  simp [wider] at same

end Registry
end ServiceMap
