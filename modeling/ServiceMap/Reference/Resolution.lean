import ServiceMap.Reference.Extraction
import ServiceMap.Registry

/-! Which API a call reaches: of the provided APIs whose segments stand in a row in the target, the
one with the longest name. -/

namespace ServiceMap

/-- A provided API, with its name cut down to the segments by which targets are compared. -/
structure Offer where
  provider : String
  api : String
  name : List Char

namespace Offer

def segments (o : Offer) : List (List Char) := Target.segments o.name

/-- Whether a target with these segments reaches the API. -/
def meets (o : Offer) (target : List (List Char)) : Bool := Target.containsRun target o.segments

/-- The first of the offers with the longest name. -/
def longest? : List Offer → Option Offer
  | [] => none
  | o :: rest =>
    match longest? rest with
    | some best => if o.name.length < best.name.length then some best else some o
    | none => some o

end Offer

/-- The offers of all services, in registration order and within a service in the order listed. -/
def Registry.offers (r : Registry) : List Offer :=
  r.services.flatMap fun s => s.provides.map fun api =>
    ⟨s.name, api, Target.normalize api.toList⟩

/-- What a call target reaches. -/
def Registry.resolve? (r : Registry) (target : String) : Option Resolution :=
  let segments := Target.segments (Target.normalize target.toList)
  (Offer.longest? (r.offers.filter (·.meets segments))).map fun o => ⟨o.provider, o.api⟩

/-- The call with what it reaches filled in. -/
def CallSite.resolved (c : CallSite) (r : Registry) : CallSite :=
  { c with resolution := r.resolve? c.target }

end ServiceMap
