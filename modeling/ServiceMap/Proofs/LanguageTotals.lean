import ServiceMap.Audit.Languages
import ServiceMap.Proofs.Accounts
import ServiceMap.Proofs.Tables

/-! The totals of the languages. A report puts each service with one language, and so what its
summaries add up to are the totals of the scans; the graph of the same scans counts the same calls. -/

namespace ServiceMap

open scoped List

/-- How many calls of the scan reach something. -/
def Scan.reached (r : Registry) (s : Scan) : Nat :=
  (s.calls.filter fun c => (r.resolve? c.target).isSome).length

/-- How many calls of the scan reach nothing. -/
def Scan.failed (r : Registry) (s : Scan) : Nat :=
  (s.calls.filter fun c => (r.resolve? c.target).isNone).length

theorem Scan.reached_add_failed (r : Registry) (s : Scan) :
    s.reached r + s.failed r = s.calls.length := by
  have halves := @List.length_eq_length_filter_add _ s.calls fun c => (r.resolve? c.target).isSome
  simp only [Option.not_isSome] at halves
  exact halves.symm

/-- The call puts an API into an edge: one from the service that makes the call to the service that
provides what the call reaches, with what it reaches among the APIs. -/
def Graph.takesIn (g : Graph) (r : Registry) (o : Outgoing) : Bool :=
  (r.resolve? o.call.target).any fun x => g.edges.any fun e =>
    e.consumer = o.consumer && e.provider = x.provider && e.apis.toList.contains x.api

namespace Draft

variable {d : Draft} {r : Registry}

/-- The calls of which an API is in an edge are those that cross to another service. -/
theorem takesIn_eq_crosses {o : Outgoing} (ho : o ∈ d.calls) :
    (d.graph r).takesIn r o = o.crosses r := by
  rw [Graph.takesIn, Outgoing.crosses]
  cases reached : r.resolve? o.call.target with
  | none => rfl
  | some x =>
    have edge := mem_edges (d := d) (r := r) (c := o.consumer) (p := x.provider) (a := x.api)
    rw [Option.any_some, Option.any_some, Bool.eq_iff_iff, decide_eq_true_eq]
    simp only [List.any_eq_true, Bool.and_eq_true, decide_eq_true_eq, List.contains_iff_mem, and_assoc]
    rw [edge]
    exact and_iff_left ⟨o.call, ho, reached⟩

end Draft

instance : Std.TransOrd Language := inferInstanceAs (Std.TransCmp (compareOn Language.rank))

instance : Std.LawfulEqOrd Language where
  eq_of_compare {l k} := by cases l <;> cases k <;> decide

namespace LanguageSummary

variable {r : Registry}

/-- Every number goes up by what the scans have of it. -/
theorem foldl_add (l : LanguageSummary) (members : List (Service × Scan)) :
    members.foldl (add r) l =
      ⟨l.language, l.services ++ members.map (·.1.name),
        l.filesScanned + (members.map (·.2.filesScanned)).sum,
        l.callSites + (members.map (·.2.calls.length)).sum,
        l.resolved + (members.map (·.2.reached r)).sum,
        l.unresolved + (members.map (·.2.failed r)).sum⟩ := by
  induction members generalizing l with
  | nil => simp
  | cons m members ih =>
    have failed : m.2.calls.length - m.2.reached r = m.2.failed r :=
      Nat.sub_eq_of_eq_add' (m.2.reached_add_failed r).symm
    have step : l.add r m = ⟨l.language, l.services ++ [m.1.name],
        l.filesScanned + m.2.filesScanned, l.callSites + m.2.calls.length,
        l.resolved + m.2.reached r, l.unresolved + m.2.failed r⟩ := by
      rw [← failed]
      rfl
    rw [List.foldl_cons, ih, step]
    simp [Nat.add_assoc]

end LanguageSummary

namespace LanguageReport

/-- The services of a language, with their scans. -/
def members (r : Registry) (scans : List Scan) (l : Language) : List (Service × Scan) :=
  (r.services.zip scans).filter fun (s, _) => s.language = l

/-- The languages that occur. -/
def occurring (r : Registry) (scans : List Scan) : List Language :=
  Language.all.filter fun l => !(members r scans l).isEmpty

/-- The services of one language, with their scans, added up. -/
def summary (r : Registry) (l : Language) (members : List (Service × Scan)) : LanguageSummary where
  language := l
  services := sortBy compare (members.map (·.1.name))
  filesScanned := (members.map (·.2.filesScanned)).sum
  callSites := (members.map (·.2.calls.length)).sum
  resolved := (members.map (·.2.reached r)).sum
  unresolved := (members.map (·.2.failed r)).sum

variable {r : Registry} {scans : List Scan}

theorem occurring_pairwise (r : Registry) (scans : List Scan) :
    (occurring r scans).Pairwise fun l k => compare l k = .lt := by
  have all : Language.all.Pairwise fun l k => compare l k = .lt := by decide
  exact all.sublist List.filter_sublist

/-- Services that are taken in one by one come to one summary for each language that occurs. -/
theorem ofScans_languages (tree : FileTree) (r : Registry) (scans : List Scan) :
    (ofScans tree r scans).languages =
      (occurring r scans).map fun l => summary r l (members r scans l) := by
  let gathered (l : Language) := (members r scans l).foldl (LanguageSummary.add r) (.empty l)
  have stands (l : Language) : ((r.services.zip scans).foldl (LanguageTable.add r) ∅)[l]? =
      if members r scans l = [] then none else some (gathered l) :=
    getElem?_foldl_changeAt (fun m : Service × Scan => m.1.language) LanguageSummary.empty
      (LanguageSummary.add r) (r.services.zip scans) l
  have table : ((r.services.zip scans).foldl (LanguageTable.add r) ∅).toList =
      (occurring r scans).map fun l => (l, gathered l) := by
    have ascending : ((r.services.zip scans).foldl (LanguageTable.add r) ∅).toList.Pairwise
        fun m n => compareOn Prod.fst m n = .lt := Std.TreeMap.ordered_keys_toList
    refine eq_of_ascending ascending ?_ fun m => ?_
    · rw [List.pairwise_map]
      exact occurring_pairwise r scans
    · obtain ⟨l, s⟩ := m
      rw [Std.TreeMap.mem_toList_iff_getElem?_eq_some, stands, Option.ite_none_left_eq_some]
      simp [occurring, Language.mem_all]
  have sorted (l : Language) : (gathered l).sorted = summary r l (members r scans l) := by
    simp only [gathered, LanguageSummary.foldl_add, LanguageSummary.sorted, summary,
      LanguageSummary.empty, List.nil_append, Nat.zero_add]
  simp only [ofScans, table, List.map_map]
  exact List.map_congr_left fun l _ => sorted l

/-- Each service is a member of one language. -/
theorem members_perm (r : Registry) (scans : List Scan) :
    (occurring r scans).flatMap (members r scans) ~ r.services.zip scans := by
  rw [occurring, flatMap_filter_not_isEmpty]
  exact flatMap_filter_perm (fun p : Service × Scan => p.1.language)
    (by decide : Language.all.Nodup) fun p _ => p.1.language.mem_all

/-- A number that a summary adds up over its members is in the whole report what it is over all
scans. -/
theorem ofScans_total (f : LanguageSummary → Nat) (m : Scan → Nat)
    (adds : ∀ l ps, f (summary r l ps) = (ps.map fun p => m p.2).sum)
    (aligned : scans.length = r.services.length) (tree : FileTree) :
    ((ofScans tree r scans).languages.map f).sum = (scans.map m).sum := by
  have second : (r.services.zip scans).map Prod.snd = scans :=
    List.map_snd_zip aligned.le
  calc ((ofScans tree r scans).languages.map f).sum
      = (((occurring r scans).flatMap (members r scans)).map fun p => m p.2).sum := by
        rw [ofScans_languages, List.map_map, List.map_flatMap, List.flatMap_def, List.sum_flatten,
          List.map_map]
        simp only [Function.comp_def, adds]
    _ = ((r.services.zip scans).map fun p => m p.2).sum := ((members_perm r scans).map _).sum_eq
    _ = (scans.map m).sum := by
        conv => rhs; rw [← second, List.map_map]
        rfl

theorem summary_whole (l : Language) (ps : List (Service × Scan)) :
    (summary r l ps).resolved + (summary r l ps).unresolved = (summary r l ps).callSites := by
  simp only [summary, ← List.sum_map_add, Scan.reached_add_failed]

end LanguageReport

namespace Graph

variable {r : Registry} {scans : List Scan}

theorem length_filter_calls (p : CallSite → Bool) :
    ((Draft.ofScans scans).calls.filter fun o => p o.call).length =
      (scans.map fun s => (s.calls.filter p).length).sum := by
  rw [Draft.ofScans_eq_run, Draft.run_calls, List.flatMap_map, List.filter_flatMap, List.length_flatMap]
  refine congrArg List.sum (List.map_congr_left fun s _ => ?_)
  rw [Draft.Step.calls, List.filter_map, List.length_map]
  rfl

theorem length_unresolved : (ofScans r scans).unresolved.length =
    (scans.map (Scan.failed r)).sum := by
  rw [ofScans, Draft.graph_unresolved, (sortBy_perm _ _).length_eq, Outgoing.picked, List.length_map]
  exact length_filter_calls fun c => (r.resolve? c.target).isNone

/-- A call that reaches something crosses to another service or comes back to its own. -/
theorem length_resolved : (ofScans r scans).selfCalls.length +
      ((Draft.ofScans scans).calls.filter ((ofScans r scans).takesIn r)).length =
    (scans.map (Scan.reached r)).sum := by
  have taken : (Draft.ofScans scans).calls.filter ((ofScans r scans).takesIn r) =
      (Draft.ofScans scans).calls.filter (Outgoing.crosses r) :=
    List.filter_congr fun o ho => Draft.takesIn_eq_crosses ho
  have reaching : ∀ calls : List Outgoing,
      (calls.filter (Outgoing.returns r)).length + (calls.filter (Outgoing.crosses r)).length =
        (calls.filter fun o => (r.resolve? o.call.target).isSome).length := by
    intro calls
    have places := (Outgoing.partition r calls).length_eq
    have fails : (fun o : Outgoing => !(r.resolve? o.call.target).isSome) = Outgoing.fails r := by
      funext o
      exact Option.not_isSome _
    have halves := @List.length_eq_length_filter_add _ calls fun o =>
      (r.resolve? o.call.target).isSome
    rw [fails] at halves
    rw [List.length_append, List.length_append] at places
    omega
  rw [taken, ofScans, Draft.graph_selfCalls, (sortBy_perm _ _).length_eq, Outgoing.picked,
    List.length_map, reaching]
  exact length_filter_calls fun c => (r.resolve? c.target).isSome

end Graph

namespace LanguageReport

variable {r : Registry} {scans : List Scan}

/-- What a report says of the languages of a registry, beside the graph of the same scans. -/
structure Accounts (report : LanguageReport) (r : Registry) (scans : List Scan) : Prop where
  whole : ∀ s ∈ report.languages, s.resolved + s.unresolved = s.callSites
  unresolved : (report.languages.map LanguageSummary.unresolved).sum =
    (Graph.ofScans r scans).unresolved.length
  resolved : (report.languages.map LanguageSummary.resolved).sum =
    (Graph.ofScans r scans).selfCalls.length +
      ((Draft.ofScans scans).calls.filter ((Graph.ofScans r scans).takesIn r)).length
  callSites : (report.languages.map LanguageSummary.callSites).sum =
    (scans.map fun s => s.calls.length).sum
  filesScanned : (report.languages.map LanguageSummary.filesScanned).sum =
    (scans.map Scan.filesScanned).sum
  /-- A summary has the services of its language. -/
  services_perm : ∀ s ∈ report.languages,
    s.services ~ (r.services.filter fun t => t.language = s.language).map Service.name
  /-- Every service is in one summary, and there once. -/
  names_perm : report.languages.flatMap LanguageSummary.services ~ r.services.map Service.name
  names_nodup : (report.languages.flatMap LanguageSummary.services).Nodup
  occurs : ∀ l, (∃ s ∈ report.languages, s.language = l) ↔ ∃ t ∈ r.services, t.language = l
  ascending : report.languages.Pairwise fun s t => compare s.language t.language = .lt

theorem members_services (aligned : scans.length = r.services.length) (l : Language) :
    (members r scans l).map Prod.fst = r.services.filter fun t => t.language = l := by
  have first : (r.services.zip scans).map Prod.fst = r.services := List.map_fst_zip aligned.ge
  conv => rhs; rw [← first, List.filter_map]
  rfl

theorem services_summary (l : Language) (ps : List (Service × Scan)) :
    (summary r l ps).services ~ (ps.map Prod.fst).map Service.name := by
  rw [List.map_map]
  exact sortBy_perm _ _

theorem names_languages (aligned : scans.length = r.services.length) (tree : FileTree) :
    (ofScans tree r scans).languages.flatMap LanguageSummary.services ~
      r.services.map Service.name := by
  have first : (r.services.zip scans).map Prod.fst = r.services := List.map_fst_zip aligned.ge
  calc (ofScans tree r scans).languages.flatMap LanguageSummary.services
      = (occurring r scans).flatMap fun l => (summary r l (members r scans l)).services := by
        rw [ofScans_languages, List.flatMap_map]
    _ ~ (occurring r scans).flatMap fun l => ((members r scans l).map Prod.fst).map Service.name :=
        List.Perm.flatMap_left _ fun l _ => services_summary l _
    _ = (((occurring r scans).flatMap (members r scans)).map Prod.fst).map Service.name := by
        rw [List.map_flatMap, List.map_flatMap]
    _ ~ ((r.services.zip scans).map Prod.fst).map Service.name :=
        ((members_perm r scans).map _).map _
    _ = r.services.map Service.name := by rw [first]

theorem mem_occurring (aligned : scans.length = r.services.length) {l : Language} :
    l ∈ occurring r scans ↔ ∃ t ∈ r.services, t.language = l := by
  have empty : (members r scans l).isEmpty = (r.services.filter fun t => t.language = l).isEmpty := by
    rw [← members_services aligned, List.isEmpty_map]
  rw [occurring, List.mem_filter, empty, and_iff_right (Language.mem_all l)]
  simp

/-- The totals of the languages are those of the scans and of the graph, and the languages share the
services out among them. -/
theorem ofScans_accounts {settings : Settings} (built : Registry.ofSettings settings = .ok r)
    (aligned : scans.map Scan.service = r.services.map Service.name) (tree : FileTree) :
    (ofScans tree r scans).Accounts r scans := by
  have length : scans.length = r.services.length := by
    simpa using congrArg List.length aligned
  have names := names_languages length tree
  exact
    { whole := by
        intro s hs
        rw [ofScans_languages] at hs
        obtain ⟨l, -, rfl⟩ := List.mem_map.1 hs
        exact summary_whole l _
      unresolved := (ofScans_total _ (Scan.failed r) (fun _ _ => rfl) length tree).trans
        Graph.length_unresolved.symm
      resolved := (ofScans_total _ (Scan.reached r) (fun _ _ => rfl) length tree).trans
        Graph.length_resolved.symm
      callSites := ofScans_total _ (fun s => s.calls.length) (fun _ _ => rfl) length tree
      filesScanned := ofScans_total _ Scan.filesScanned (fun _ _ => rfl) length tree
      services_perm := by
        intro s hs
        rw [ofScans_languages] at hs
        obtain ⟨l, -, rfl⟩ := List.mem_map.1 hs
        rw [← members_services length]
        exact services_summary l _
      names_perm := names
      names_nodup := names.nodup_iff.2 (Registry.ofSettings_nodup built)
      occurs := by
        intro l
        rw [← mem_occurring length, ofScans_languages]
        constructor
        · rintro ⟨s, hs, rfl⟩
          obtain ⟨l, hl, rfl⟩ := List.mem_map.1 hs
          exact hl
        · intro hl
          exact ⟨_, List.mem_map_of_mem hl, rfl⟩
      ascending := by
        rw [ofScans_languages, List.pairwise_map]
        exact occurring_pairwise r scans }

/-- A service calls the other, itself and nothing; the other calls the first twice. -/
def mixedScans : List Scan :=
  [{ service := "a", filesScanned := 2,
     calls := [⟨⟨"a.go"⟩, 1, "/y", "r", none⟩, ⟨⟨"a.go"⟩, 2, "/x", "r", none⟩,
       ⟨⟨"a.go"⟩, 3, "/z", "r", none⟩] },
   { service := "b", filesScanned := 1,
     calls := [⟨⟨"b.py"⟩, 1, "/x", "r", none⟩, ⟨⟨"b.py"⟩, 2, "/x", "r", none⟩] }]

theorem ofScans_accounts_mixed :
    Registry.ofSettings pairSettings = .ok pairRegistry ∧
      mixedScans.map Scan.service = pairRegistry.services.map Service.name ∧
      (ofScans .empty pairRegistry mixedScans).languages =
        [⟨.python, ["b"], 1, 2, 2, 0⟩, ⟨.go, ["a"], 2, 3, 2, 1⟩] ∧
      (ofScans .empty pairRegistry mixedScans).Accounts pairRegistry mixedScans := by
  have built : Registry.ofSettings pairSettings = .ok pairRegistry := by cbv
  have counted : (ofScans .empty pairRegistry mixedScans).languages =
      [⟨.python, ["b"], 1, 2, 2, 0⟩, ⟨.go, ["a"], 2, 3, 2, 1⟩] := by decide +kernel
  exact ⟨built, rfl, counted, ofScans_accounts built rfl .empty⟩

end LanguageReport

end ServiceMap
