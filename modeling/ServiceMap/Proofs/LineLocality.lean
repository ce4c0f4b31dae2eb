import Mathlib
import ServiceMap.Proofs.Sorting
import ServiceMap.Reference.Extraction

/-! Extraction looks at one line at a time. What it finds in two texts, one after the other, is what it
finds in each; and it does not matter whether lines end with a carriage return. -/

namespace ServiceMap

namespace Text

theorem linesOfPieces_append {qs : List (List Char)} (ne : qs ≠ []) (ps : List (List Char)) :
    linesOfPieces (ps ++ qs) = ps.map dropReturn ++ linesOfPieces qs := by
  induction ps with
  | nil => rfl
  | cons p ps ih =>
    rw [List.cons_append, linesOfPieces, ih]
    · rfl
    · simp [ne]

/-- A line feed ends the lines before it, whatever comes after. -/
theorem lines_append_feed (s t : List Char) :
    lines (s ++ '\n' :: t) = (split '\n' s).map dropReturn ++ lines t := by
  rw [lines, split_append_sep, linesOfPieces_append (split_ne_nil _ t)]
  rfl

theorem lines_feed (s : List Char) : lines (s ++ ['\n']) = (split '\n' s).map dropReturn := by
  rw [lines_append_feed]
  exact List.append_nil _

theorem suffix_joinWith (sep : Char) (ps : List (List Char)) (p : List Char) :
    p <:+ joinWith sep (ps ++ [p]) := by
  induction ps with
  | nil => exact List.suffix_refl p
  | cons q ps ih =>
    have step : joinWith sep (q :: (ps ++ [p])) = q ++ sep :: joinWith sep (ps ++ [p]) := by
      cases ps <;> rfl
    rw [List.cons_append, step]
    exact ih.trans ((List.suffix_cons sep _).trans (List.suffix_append q _))

/-- Without a carriage return at the end, a line feed adds no more than an empty line. -/
theorem lines_feed_cases {s : List Char} (h : s.getLast? ≠ some '\r') :
    lines (s ++ ['\n']) = lines s ∨ lines (s ++ ['\n']) = lines s ++ [[]] := by
  obtain ⟨ps, last, pieces⟩ : ∃ ps last, split '\n' s = ps ++ [last] :=
    ⟨_, _, (List.dropLast_concat_getLast (split_ne_nil '\n' s)).symm⟩
  rw [lines_feed, lines, pieces, linesOfPieces_append (by simp), List.map_append]
  -- an empty last piece is a line only when a line feed follows it
  by_cases empty : last = []
  · exact .inr (by simp [empty, linesOfPieces, dropReturn])
  · have ends : last.getLast? = s.getLast? := by
      obtain ⟨front, eq⟩ := suffix_joinWith '\n' ps last
      rw [← joinWith_split '\n' s, pieces, ← eq, List.getLast?_append_of_ne_nil _ empty]
    have kept : dropReturn last = last := if_neg (ends ▸ h)
    exact .inl (by simp [empty, linesOfPieces, kept])

/-- A carriage return before every line feed. -/
def withReturns (s : List Char) : List Char := s.flatMap fun c => if c = '\n' then ['\r', '\n'] else [c]

theorem withReturns_of_not_mem {s : List Char} (h : '\n' ∉ s) : withReturns s = s := by
  induction s with
  | nil => rfl
  | cons c s ih =>
    obtain ⟨other, rest⟩ : c ≠ '\n' ∧ '\n' ∉ s := by simpa [eq_comm] using h
    rw [withReturns, List.flatMap_cons, if_neg other]
    exact congrArg (c :: ·) (ih rest)

theorem dropReturn_of_not_mem {l : List Char} (h : '\r' ∉ l) : dropReturn l = l :=
  if_neg fun last => h (List.mem_of_getLast? last)

theorem lines_withReturns_joinWith {ps : List (List Char)} (free : ∀ p ∈ ps, '\n' ∉ p)
    (plain : '\r' ∉ joinWith '\n' ps) :
    lines (withReturns (joinWith '\n' ps)) = lines (joinWith '\n' ps) := by
  induction ps with
  | nil => rfl
  | cons p ps ih =>
    obtain ⟨here, others⟩ := List.forall_mem_cons.1 free
    cases ps with
    | nil => exact congrArg lines (withReturns_of_not_mem here)
    | cons q ps =>
      have step : joinWith '\n' (p :: q :: ps) = p ++ '\n' :: joinWith '\n' (q :: ps) := rfl
      rw [step] at plain ⊢
      simp only [List.mem_append, List.mem_cons, not_or] at plain
      obtain ⟨noReturn, -, below⟩ := plain
      have turned : withReturns (p ++ '\n' :: joinWith '\n' (q :: ps)) =
          (p ++ ['\r']) ++ '\n' :: withReturns (joinWith '\n' (q :: ps)) := by
        rw [withReturns, List.flatMap_append, List.flatMap_cons, if_pos rfl, List.append_assoc]
        exact congrArg (· ++ _) (withReturns_of_not_mem here)
      have ended : dropReturn (p ++ ['\r']) = p := by simp [dropReturn]
      rw [turned, lines_append_feed, lines_append_feed, ih others below,
        split_of_not_mem (by simp [here]), split_of_not_mem here, List.map_singleton, List.map_singleton,
        ended, dropReturn_of_not_mem noReturn]

theorem lines_withReturns {s : List Char} (plain : '\r' ∉ s) : lines (withReturns s) = lines s := by
  rw [← joinWith_split '\n' s] at plain ⊢
  exact lines_withReturns_joinWith (fun _ => not_mem_of_mem_split) plain

end Text

namespace Finding

variable {marks : List String} {rules : List Rule} {number k : Nat} {line : List Char}

/-- The same finding, that many lines further down. -/
def lowered (k : Nat) (f : Finding) : Finding := { f with line := f.line + k }

theorem take_lowered (rule : Rule) (found : List Finding) (s : Span) :
    take (number + k) line rule (found.map (lowered k)) s = (take number line rule found s).map (lowered k) := by
  have met : (found.map (lowered k)).any (fun f => f.span.overlaps s) =
      found.any fun f => f.span.overlaps s := by
    rw [List.any_map]
    rfl
  rw [take, take, met]
  split
  · rfl
  · simp [lowered]

theorem taken_lowered : taken rules (number + k) line = (taken rules number line).map (lowered k) := by
  have step (found : List Finding) (rule : Rule) :
      (rule.pattern.targets line).foldl (take (number + k) line rule) (found.map (lowered k)) =
        ((rule.pattern.targets line).foldl (take number line rule) found).map (lowered k) :=
    List.foldl_hom (List.map (lowered k)) fun found s => take_lowered rule found s
  have run : rules.foldl (fun acc rule => (rule.pattern.targets line).foldl (take (number + k) line rule) acc)
      (([] : List Finding).map (lowered k)) = _ := List.foldl_hom (List.map (lowered k)) step
  exact run

theorem ofLine_lowered : ofLine marks rules (number + k) line =
    (ofLine marks rules number line).map (lowered k) := by
  unfold ofLine
  split
  · rfl
  · rw [taken_lowered, sortBy, sortBy, List.map_mergeSort]
    exact fun _ _ _ _ => rfl

/-- An empty line has no place for a target. -/
theorem ofLine_nil : ofLine marks rules number [] = [] := by
  have pass (rule : Rule) (s : Span) : take number [] rule [] s = [] := by
    have bare : Target.hasLiteral (s.slice []) = false := by simp [Span.slice, Target.hasLiteral]; decide
    rw [take, bare]
    simp
  have none : taken rules number [] = [] :=
    List.foldl_fixed' (fun rule => List.foldl_fixed' (pass rule) (rule.pattern.targets [])) rules
  rw [ofLine, none]
  split
  · rfl
  · simp [sortBy]

/-- The findings of lines that are counted from `number`. -/
def ofLines (marks : List String) (rules : List Rule) (number : Nat) (lines : List (List Char)) :
    List Finding :=
  (lines.zipIdx number).flatMap fun (line, number) => ofLine marks rules number line

theorem ofLines_lowered (ls : List (List Char)) :
    ofLines marks rules (number + k) ls = (ofLines marks rules number ls).map (lowered k) := by
  induction ls generalizing number with
  | nil => rfl
  | cons l ls ih =>
    have below := @ih (number + 1)
    rw [Nat.add_right_comm] at below
    simp only [ofLines, List.zipIdx_cons, List.flatMap_cons, List.map_append] at below ⊢
    rw [ofLine_lowered, below]

theorem ofLines_append (ls ms : List (List Char)) : ofLines marks rules number (ls ++ ms) =
    ofLines marks rules number ls ++ (ofLines marks rules number ms).map (lowered ls.length) := by
  rw [← ofLines_lowered, ofLines, List.zipIdx_append, List.flatMap_append]
  rfl

theorem ofLines_feed {s : List Char} (ended : s.getLast? ≠ some '\r') :
    ofLines marks rules number (Text.lines (s ++ ['\n'])) = ofLines marks rules number (Text.lines s) := by
  rcases Text.lines_feed_cases ended with same | longer
  · rw [same]
  · have empty : ofLines marks rules number [[]] = [] := by simp [ofLines, ofLine_nil]
    rw [longer, ofLines_append, empty, List.map_nil, List.append_nil]

/-- The lines of a text with a line feed behind it are numbered on in the text that follows. -/
theorem ofText_append_feed {a b : String} (ended : a.toList.getLast? ≠ some '\r') :
    ofText marks rules (a ++ "\n" ++ b) = ofText marks rules a ++
      (ofText marks rules b).map (lowered (Text.lines (a ++ "\n").toList).length) := by
  have fed : (a ++ "\n").toList = a.toList ++ ['\n'] := String.toList_append
  have joined : Text.lines (a ++ "\n" ++ b).toList =
      Text.lines (a.toList ++ ['\n']) ++ Text.lines b.toList := by
    rw [String.toList_append, fed, List.append_assoc, Text.lines_feed]
    exact Text.lines_append_feed _ _
  calc ofText marks rules (a ++ "\n" ++ b)
      = ofLines marks rules 1 (Text.lines (a.toList ++ ['\n']) ++ Text.lines b.toList) := by
        rw [← joined]
        rfl
    _ = ofLines marks rules 1 (Text.lines (a.toList ++ ['\n'])) ++
          (ofLines marks rules 1 (Text.lines b.toList)).map
            (lowered (Text.lines (a.toList ++ ['\n'])).length) := ofLines_append _ _
    _ = _ := by
        rw [ofLines_feed ended, fed]
        rfl

theorem ofText_congr {a b : String} (same : Text.lines a.toList = Text.lines b.toList) :
    ofText marks rules a = ofText marks rules b := by
  rw [ofText, ofText, same]

/-- What the start has and each step keeps holds of what is taken from a line. -/
theorem taken_induction {P : List Finding → Prop} (start : P [])
    (step : ∀ rule ∈ rules, ∀ s ∈ rule.pattern.targets line, ∀ found, P found →
      P (take number line rule found s)) : P (taken rules number line) :=
  List.foldlRecOn rules _ start fun _ hfound rule hrule =>
    List.foldlRecOn (rule.pattern.targets line) _ hfound fun found h s hs => step rule hrule s hs found h

theorem line_of_mem_taken {f : Finding} (hf : f ∈ taken rules number line) : f.line = number := by
  have all : ∀ f ∈ taken rules number line, f.line = number := by
    refine taken_induction (P := fun found => ∀ f ∈ found, f.line = number) (by simp) ?_
    intro rule _ s _ found h f hf
    unfold take at hf
    split at hf
    · exact h f hf
    · rcases List.mem_append.1 hf with hf | hf
      · exact h f hf
      · rw [List.mem_singleton.1 hf]
  exact all f hf

/-- By line, and on a line from left to right. -/
def order : Finding → Finding → Ordering :=
  compareLex (compareOn Finding.line) (compareOn fun f => f.span.start)

instance : Std.TransCmp order :=
  inferInstanceAs (Std.TransCmp (compareLex (compareOn Finding.line) (compareOn fun f => f.span.start)))

theorem order_of_line_eq {f g : Finding} (same : f.line = g.line) :
    order f g = compareOn (fun f => f.span.start) f g := by
  simp [order, compareLex, compareOn, same]

theorem order_of_line_lt {f g : Finding} (above : f.line < g.line) : order f g = .lt := by
  simp [order, compareLex, compareOn, Nat.compare_eq_lt.2 above]

/-- What is taken from the lines, on each line rule by rule. -/
def unordered (marks : List String) (rules : List Rule) (source : String) : List Finding :=
  ((Text.lines source.toList).zipIdx 1).flatMap fun (line, number) =>
    if isComment marks line then [] else taken rules number line

theorem ofLine_eq_sortBy : ofLine marks rules number line =
    sortBy order (if isComment marks line then [] else taken rules number line) := by
  rw [ofLine]
  split
  · simp [sortBy]
  · have alike : ∀ f ∈ taken rules number line, ∀ g ∈ taken rules number line,
        (compareOn (fun f => f.span.start) f g).isLE = (order f g).isLE := fun f hf g hg => by
      rw [order_of_line_eq ((line_of_mem_taken hf).trans (line_of_mem_taken hg).symm)]
    have sorted := List.map_mergeSort (r := fun f g => (compareOn (fun f => f.span.start) f g).isLE)
      (s := fun f g => (order f g).isLE) (f := id) alike
    rwa [List.map_id, List.map_id] at sorted

theorem numbered_pairwise (source : String) :
    ((Text.lines source.toList).zipIdx 1).Pairwise fun l m => l.2 < m.2 := by
  rw [← List.pairwise_map (f := Prod.snd), List.zipIdx_map_snd]
  exact List.pairwise_lt_range'

/-- To order each line by itself is to order all lines at once. -/
theorem ofText_eq_sortBy (marks : List String) (rules : List Rule) (source : String) :
    ofText marks rules source = sortBy order (unordered marks rules source) := by
  have member {f : Finding} {l : List Char × Nat}
      (hf : f ∈ if isComment marks l.1 then [] else taken rules l.2 l.1) : f.line = l.2 :=
    line_of_mem_taken (List.mem_ite_nil_left.1 hf).2
  rw [unordered, sortBy_flatMap, ofText]
  · refine List.flatMap_congr fun l _ => ?_
    exact ofLine_eq_sortBy
  · refine (numbered_pairwise source).imp fun above f hf g hg => ?_
    have lt : f.line < g.line := by rwa [member hf, member hg]
    rw [order_of_line_lt lt]
    rfl

end Finding

def CallSite.lowered (k : Nat) (c : CallSite) : CallSite := { c with line := c.line + k }

def Import.lowered (k : Nat) (i : Import) : Import := { i with line := i.line + k }

/-- What is found in two texts, with a line feed between them, is what is found in the first and, further
down, what is found in the second; and texts with and without carriage returns before their line feeds
are read alike. -/
theorem extract_by_lines (l : Language) (file : Path) :
    (∀ a b : String, a.toList.getLast? ≠ some '\r' →
      let above := (Text.lines (a ++ "\n").toList).length
      CallSite.extract l (a ++ "\n" ++ b) file =
          CallSite.extract l a file ++ (CallSite.extract l b file).map (.lowered above) ∧
        Import.extract l (a ++ "\n" ++ b) file =
          Import.extract l a file ++ (Import.extract l b file).map (.lowered above)) ∧
      ∀ text : String, '\r' ∉ text.toList →
        let returned := String.ofList (Text.withReturns text.toList)
        CallSite.extract l returned file = CallSite.extract l text file ∧
          Import.extract l returned file = Import.extract l text file := by
  constructor
  · intro a b ended above
    constructor
    · rw [CallSite.extract, Finding.ofText_append_feed ended, List.map_append, List.map_map]
      simp only [CallSite.extract, List.map_map]
      rfl
    · rw [Import.extract, Finding.ofText_append_feed ended, List.map_append, List.map_map]
      simp only [Import.extract, List.map_map]
      rfl
  · intro text plain returned
    have same : Text.lines returned.toList = Text.lines text.toList := by
      rw [String.toList_ofList, Text.lines_withReturns plain]
    constructor
    · rw [CallSite.extract, Finding.ofText_congr same, CallSite.extract]
    · rw [Import.extract, Finding.ofText_congr same, Import.extract]

/-- Two lines, the second with a call. -/
def callsAbove : String := "// users\nhttp.Get(\"/users\")"

/-- An empty line, and one with two calls. -/
def callsBelow : String := "\nhttp.Get(\"/a\"); http.Get(\"/b\")\n"

def goCall (line : Nat) (target : String) : CallSite := ⟨⟨"m.go"⟩, line, target, "go-http-func", none⟩

theorem extract_by_lines_calls :
    callsAbove.toList.getLast? ≠ some '\r' ∧ '\r' ∉ callsBelow.toList ∧
      CallSite.extract .go (callsAbove ++ "\n" ++ callsBelow) ⟨"m.go"⟩ =
        [goCall 2 "/users", goCall 4 "/a", goCall 4 "/b"] ∧
      CallSite.extract .go "\r\nhttp.Get(\"/a\"); http.Get(\"/b\")\r\n" ⟨"m.go"⟩ =
        [goCall 2 "/a", goCall 2 "/b"] := by
  have ended : callsAbove.toList.getLast? ≠ some '\r' := by decide
  have plain : '\r' ∉ callsBelow.toList := by decide
  have above : CallSite.extract .go callsAbove ⟨"m.go"⟩ = [goCall 2 "/users"] := by cbv
  have below : CallSite.extract .go callsBelow ⟨"m.go"⟩ = [goCall 2 "/a", goCall 2 "/b"] := by cbv
  have count : (Text.lines (callsAbove ++ "\n").toList).length = 2 := by decide
  have written : String.ofList (Text.withReturns callsBelow.toList) =
      "\r\nhttp.Get(\"/a\"); http.Get(\"/b\")\r\n" := by decide
  obtain ⟨appended, returned⟩ := extract_by_lines .go ⟨"m.go"⟩
  refine ⟨ended, plain, ?_, ?_⟩
  · rw [(appended callsAbove callsBelow ended).1, above, below, count]
    rfl
  · rw [← written, (returned callsBelow plain).1, below]

end ServiceMap
