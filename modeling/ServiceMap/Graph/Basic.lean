import ServiceMap.Graph.Edge
import ServiceMap.Reference.Resolution
import ServiceMap.Scan

/-! The graph of the services. Every call goes to one of three places: an edge, when another service
provides what it reaches; the calls of a service to itself; and the calls that reach nothing. -/

namespace ServiceMap

/-- By file, line and target. -/
def CallSite.order : CallSite → CallSite → Ordering :=
  compareLex (compareOn file) (compareLex (compareOn line) (compareOn target))

instance : Std.TransCmp CallSite.order :=
  inferInstanceAs (Std.TransCmp
    (compareLex (compareOn CallSite.file) (compareLex (compareOn CallSite.line) (compareOn CallSite.target))))

@[ext]
structure Graph (P : Type := Path) where
  /-- In ascending order; no edge leads from a service to itself. -/
  edges : List Edge
  unresolved : List (CallSite P)
  selfCalls : List (CallSite P)
  warnings : List (Warning P)

/-- A call and the service that makes it. -/
structure Outgoing where
  consumer : String
  call : CallSite

namespace Outgoing

def resolved (r : Registry) (o : Outgoing) : Outgoing := { o with call := o.call.resolved r }

def isSelf (o : Outgoing) : Bool := o.call.resolution.any fun x => x.provider = o.consumer

end Outgoing

/-- The three places for calls, as they fill up. -/
structure Places where
  edges : EdgeTable := ∅
  unresolved : List CallSite := []
  selfCalls : List CallSite := []

/-- Puts a call into its place, by what it reaches. -/
def Places.add (r : Registry) (p : Places) (o : Outgoing) : Places :=
  let call := o.call.resolved r
  match call.resolution with
  | some x =>
    if x.provider = o.consumer then { p with selfCalls := p.selfCalls ++ [call] }
    else { p with edges := p.edges.add ⟨o.consumer, x.provider, x.api⟩ }
  | none => { p with unresolved := p.unresolved ++ [call] }

/-- The calls and warnings that have come in so far. -/
structure Draft where
  calls : List Outgoing := []
  warnings : List Warning := []

namespace Draft

def empty : Draft := {}

def addCall (d : Draft) (consumer : String) (call : CallSite) : Draft :=
  { d with calls := d.calls ++ [⟨consumer, call⟩] }

def addScan (d : Draft) (s : Scan) : Draft where
  calls := d.calls ++ s.calls.map (Outgoing.mk s.service)
  warnings := d.warnings ++ s.warnings

/-- The calls with what they reach. -/
def resolved (d : Draft) (r : Registry) : List Outgoing := d.calls.map (·.resolved r)

/-- The calls in their places, put there one after the other. -/
def places (d : Draft) (r : Registry) : Places := d.calls.foldl (Places.add r) {}

def graph (d : Draft) (r : Registry) : Graph :=
  let p := d.places r
  { edges := p.edges.edges
    unresolved := sortBy CallSite.order p.unresolved
    selfCalls := sortBy CallSite.order p.selfCalls
    warnings := sortBy compare d.warnings }

def ofScans (scans : List Scan) : Draft := scans.foldl addScan empty

end Draft

def Graph.ofScans (r : Registry) (scans : List Scan) : Graph := (Draft.ofScans scans).graph r

end ServiceMap
