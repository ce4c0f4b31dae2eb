import ServiceMap.Proofs.LineLocality

/-! What extraction reports of a text, and what it leaves out. A pattern marks a part of the line that it
is tried on. Of what the rules mark, a line takes each target that meets none taken before; so what is
taken never overlaps, and what is left out overlaps something that is taken. -/

namespace ServiceMap

namespace Pattern

variable {α : Type} {p : Pattern} {c d e : Cursor}

/-- `d` is as far along on the line as `c`, or further, and what was marked between the two lies there. -/
structure Cursor.Leads (c d : Cursor) : Prop where
  column_le : c.column ≤ d.column
  line_end : c.column + c.rest.length = d.column + d.rest.length
  target : d.target = c.target ∨
    ∃ s, d.target = some s ∧ c.column ≤ s.start ∧ s.start ≤ s.stop ∧ s.stop ≤ d.column

theorem Cursor.Leads.refl (c : Cursor) : c.Leads c := ⟨Nat.le_refl _, rfl, .inl rfl⟩

theorem Cursor.Leads.trans (h : c.Leads d) (k : d.Leads e) : c.Leads e := by
  refine ⟨Nat.le_trans h.column_le k.column_le, h.line_end.trans k.line_end, ?_⟩
  have further := k.column_le
  rcases k.target with same | ⟨s, marked, start, order, stop⟩
  · rcases h.target with before | ⟨s, marked, start, order, stop⟩
    · exact .inl (same.trans before)
    · exact .inr ⟨s, same.trans marked, start, order, by omega⟩
  · have := h.column_le
    exact .inr ⟨s, marked, by omega, order, stop⟩

theorem runMany_leads {cls : CharClass} {k : Cursor → Option α} {t : Option Span} {b : Option Char}
    {rest : List Char} {n : Nat} {a : α} (h : runMany cls k t b rest n = some a) :
    ∃ d, Cursor.Leads ⟨b, rest, n, t⟩ d ∧ k d = some a := by
  induction rest generalizing b n with
  | nil => exact ⟨_, .refl _, h⟩
  | cons x rest ih =>
    rw [runMany] at h
    split at h
    · split at h
      · next longer =>
        obtain rfl := Option.some.inj h
        obtain ⟨d, leads, found⟩ := ih longer
        have step : Cursor.Leads ⟨b, x :: rest, n, t⟩ ⟨some x, rest, n + 1, t⟩ :=
          ⟨Nat.le_succ n, by simp; omega, .inl rfl⟩
        exact ⟨d, step.trans leads, found⟩
      · exact ⟨_, .refl _, h⟩
    · exact ⟨_, .refl _, h⟩

/-- A match ends further along on the line, where what follows goes on. -/
theorem run_leads {k : Cursor → Option α} {a : α} (h : p.run k c = some a) :
    ∃ d, c.Leads d ∧ k d = some a := by
  induction p generalizing k c with
  | empty => exact ⟨c, .refl c, h⟩
  | one cls =>
    rw [run] at h
    split at h
    · cases h
    · next x rest line =>
      split at h
      · have step : c.Leads ⟨some x, rest, c.column + 1, c.target⟩ :=
          ⟨Nat.le_succ _, by simp [line]; omega, .inl rfl⟩
        exact ⟨_, step, h⟩
      · cases h
  | many cls => exact runMany_leads h
  | seq p q ihp ihq =>
    obtain ⟨d, first, then_⟩ := ihp h
    obtain ⟨e, second, found⟩ := ihq then_
    exact ⟨e, first.trans second, found⟩
  | either p q ihp ihq =>
    rw [run] at h
    split at h
    · next a' first =>
      obtain rfl := Option.some.inj h
      exact ihp first
    · exact ihq h
  | wordEdge =>
    rw [run] at h
    split at h
    · exact ⟨c, .refl c, h⟩
    · cases h
  | lineStart =>
    rw [run] at h
    split at h
    · exact ⟨c, .refl c, h⟩
    · cases h
  | lineEnd =>
    rw [run] at h
    split at h
    · exact ⟨c, .refl c, h⟩
    · cases h
  | target p ih =>
    obtain ⟨d, leads, found⟩ := ih h
    have marked : c.Leads { d with target := some ⟨c.column, d.column⟩ } :=
      ⟨leads.column_le, leads.line_end, .inr ⟨_, rfl, Nat.le_refl _, leads.column_le, Nat.le_refl _⟩⟩
    exact ⟨_, marked, found⟩

/-- What a match marks lies between the place where it starts and the end of the line. -/
theorem span_of_run {b : Option Char} {rest : List Char} {n : Nat} {s : Span}
    (found : p.run some ⟨b, rest, n, none⟩ = some d) (marked : d.target = some s) :
    n ≤ s.start ∧ s.start ≤ s.stop ∧ s.stop ≤ n + rest.length := by
  obtain ⟨d, leads, same⟩ := run_leads found
  obtain rfl := Option.some.inj same
  have last := leads.line_end
  rcases leads.target with none | ⟨t, target, start, order, stop⟩
  · rw [none] at marked
    cases marked
  · obtain rfl : t = s := Option.some.inj (target.symm.trans marked)
    dsimp only at start last
    omega

theorem mem_targetsFrom {free n : Nat} {b : Option Char} {rest : List Char} {s : Span}
    (h : s ∈ p.targetsFrom free b rest n) :
    n ≤ s.start ∧ s.start ≤ s.stop ∧ s.stop ≤ n + rest.length := by
  have here {free n : Nat} {b : Option Char} {rest : List Char}
      (mem : s ∈ ((if n < free then none else p.run some ⟨b, rest, n, none⟩).bind Cursor.target).toList) :
      n ≤ s.start ∧ s.start ≤ s.stop ∧ s.stop ≤ n + rest.length := by
    obtain ⟨d, found, marked⟩ := Option.bind_eq_some_iff.1 (Option.mem_toList.1 mem)
    split at found
    · cases found
    · exact span_of_run found marked
  induction rest generalizing b n free with
  | nil =>
    rw [targetsFrom, List.append_nil] at h
    exact here h
  | cons x rest ih =>
    rw [targetsFrom] at h
    rcases List.mem_append.1 h with first | later
    · exact here first
    · have := ih later
      simp only [List.length_cons]
      omega

/-- A pattern marks parts of the line that it is tried on. -/
theorem mem_targets {line : List Char} {s : Span} (h : s ∈ p.targets line) :
    s.start ≤ s.stop ∧ s.stop ≤ line.length := by
  have := mem_targetsFrom h
  omega

end Pattern

namespace Target

theorem hasLiteral_iff {s : List Char} : hasLiteral s = true ↔
    ∃ g ∈ Text.split '/' s, Text.trim g ≠ [] ∧ isPlaceholder (Text.trim g) = false := by
  simp [hasLiteral]

/-- What names something is not empty. -/
theorem ne_nil_of_hasLiteral {s : List Char} (h : hasLiteral s = true) : s ≠ [] := by
  rintro rfl
  revert h
  decide

end Target

namespace Span

theorem overlaps_iff {s t : Span} : s.overlaps t = true ↔ s.start < t.stop ∧ t.start < s.stop := by
  simp [overlaps]

theorem overlaps_symm {s t : Span} (h : s.overlaps t = false) : t.overlaps s = false := by
  rwa [overlaps, Bool.and_comm]

/-- Of two parts that do not overlap, the one that starts first ends before the other. -/
theorem stop_le_start {s t : Span} (apart : s.overlaps t = false) (le : s.start ≤ t.start)
    (some : t.start < t.stop) : s.stop ≤ t.start := by
  by_contra far
  have meet : s.overlaps t = true := overlaps_iff.2 ⟨by omega, by omega⟩
  rw [apart] at meet
  cases meet

end Span

namespace Finding

variable {marks : List String} {rules : List Rule} {rule : Rule} {number : Nat} {line : List Char}
  {s : Span} {f : Finding}

/-- A finding as a rule marks it on a line. -/
structure Marked (rules : List Rule) (number : Nat) (line : List Char) (f : Finding) : Prop where
  line_eq : f.line = number
  rule_mem : f.rule ∈ rules
  span_mem : f.span ∈ f.rule.pattern.targets line
  text_eq : f.text = f.span.slice line
  literal : Target.hasLiteral f.text = true

namespace Marked

theorem start_lt_stop (h : f.Marked rules number line) : f.span.start < f.span.stop := by
  have some := Target.ne_nil_of_hasLiteral h.literal
  by_contra le
  have none : f.span.stop - f.span.start = 0 := by omega
  exact some (by rw [h.text_eq, Span.slice, none, List.take_zero])

/-- The text of a finding stands in the line at its column. -/
theorem placed (h : f.Marked rules number line) :
    ∃ front back, line = front ++ f.text ++ back ∧ front.length = f.span.start ∧
      f.span.stop = f.span.start + f.text.length := by
  obtain ⟨order, inside⟩ := Pattern.mem_targets h.span_mem
  refine ⟨line.take f.span.start, (line.drop f.span.start).drop (f.span.stop - f.span.start), ?_, ?_, ?_⟩
  · rw [h.text_eq, Span.slice, List.append_assoc, List.take_append_drop, List.take_append_drop]
  · rw [List.length_take]
    omega
  · rw [h.text_eq, Span.slice, List.length_take, List.length_drop]
    omega

end Marked

/-- A span is passed over only for one that it meets, or when it names nothing. -/
theorem take_cases (number : Nat) (line : List Char) (rule : Rule) (found : List Finding) (s : Span) :
    (take number line rule found s = found ∧
        ((∃ f ∈ found, f.span.overlaps s = true) ∨ Target.hasLiteral (s.slice line) = false)) ∨
      (take number line rule found s = found ++ [⟨number, s, s.slice line, rule⟩] ∧
        (∀ f ∈ found, f.span.overlaps s = false) ∧ Target.hasLiteral (s.slice line) = true) := by
  unfold take
  split
  · next pass => exact .inl ⟨rfl, by simpa using pass⟩
  · next free =>
    obtain ⟨apart, literal⟩ : (∀ f ∈ found, f.span.overlaps s = false) ∧
        Target.hasLiteral (s.slice line) = true := by simpa using free
    exact .inr ⟨rfl, apart, literal⟩

theorem marked_of_mem_taken (hf : f ∈ taken rules number line) : f.Marked rules number line := by
  have all : ∀ f ∈ taken rules number line, f.Marked rules number line := by
    refine taken_induction (P := fun found => ∀ f ∈ found, f.Marked rules number line) (by simp) ?_
    intro rule hrule s hs found ih f hf
    rcases take_cases number line rule found s with ⟨same, -⟩ | ⟨more, -, literal⟩
    · exact ih f (same ▸ hf)
    · rw [more] at hf
      rcases List.mem_append.1 hf with old | new
      · exact ih f old
      · rw [List.mem_singleton.1 new]
        exact ⟨rfl, hrule, hs, rfl, literal⟩
  exact all f hf

theorem taken_apart (rules : List Rule) (number : Nat) (line : List Char) :
    (taken rules number line).Pairwise fun f g => f.span.overlaps g.span = false := by
  apply taken_induction
  · exact .nil
  · intro rule _ s _ found ih
    rcases take_cases number line rule found s with ⟨same, -⟩ | ⟨more, apart, -⟩
    · rwa [same]
    · rw [more]
      refine List.pairwise_append.2 ⟨ih, List.pairwise_singleton _ _, ?_⟩
      intro f hf g hg
      rw [List.mem_singleton.1 hg]
      exact apart f hf

/-- What one rule takes from a line, after the rules before it. -/
def takeAll (number : Nat) (line : List Char) (found : List Finding) (rule : Rule) : List Finding :=
  (rule.pattern.targets line).foldl (take number line rule) found

theorem taken_eq (rules : List Rule) (number : Nat) (line : List Char) :
    taken rules number line = rules.foldl (takeAll number line) [] := rfl

/-- What only ever adds to a list leaves the list at the front. -/
theorem prefix_foldl {α β : Type} {step : List β → α → List β} (grows : ∀ l a, l <+: step l a)
    (l : List β) (as : List α) : l <+: as.foldl step l := by
  induction as generalizing l with
  | nil => exact List.prefix_refl l
  | cons a as ih => exact (grows l a).trans (ih (step l a))

theorem prefix_take (number : Nat) (line : List Char) (rule : Rule) (found : List Finding) (s : Span) :
    found <+: take number line rule found s := by
  rcases take_cases number line rule found s with ⟨same, -⟩ | ⟨more, -⟩
  · rw [same]
  · rw [more]
    exact List.prefix_append _ _

theorem prefix_takeAll (number : Nat) (line : List Char) (found : List Finding) (rule : Rule) :
    found <+: takeAll number line found rule :=
  prefix_foldl (prefix_take number line rule) found _

/-- What a rule marks is taken, or meets what has been taken by then. -/
theorem exists_mem_takeAll (number : Nat) (found : List Finding) (hs : s ∈ rule.pattern.targets line)
    (literal : Target.hasLiteral (s.slice line) = true) :
    ∃ f ∈ takeAll number line found rule, f.span = s ∧ f.rule = rule ∨ f.span.overlaps s = true := by
  obtain ⟨front, back, marked⟩ := List.append_of_mem hs
  -- the state in which the span is tried, and what follows
  let tried := front.foldl (take number line rule) found
  have later : take number line rule tried s <+: takeAll number line found rule := by
    unfold takeAll
    rw [marked, List.foldl_append, List.foldl_cons]
    exact prefix_foldl (prefix_take number line rule) _ back
  rcases take_cases number line rule tried s with ⟨same, meets | none⟩ | ⟨more, -⟩
  · rw [same] at later
    obtain ⟨f, hf, meets⟩ := meets
    exact ⟨f, later.subset hf, .inr meets⟩
  · rw [literal] at none
    cases none
  · rw [more] at later
    exact ⟨_, later.subset (List.mem_append_right _ List.mem_cons_self), .inl ⟨rfl, rfl⟩⟩

/-- What a rule marks is taken, or meets what that rule or an earlier one has taken. -/
theorem exists_mem_taken (number : Nat) (before after : List Rule) (hs : s ∈ rule.pattern.targets line)
    (literal : Target.hasLiteral (s.slice line) = true) :
    ∃ f ∈ taken (before ++ rule :: after) number line, f.rule ∈ before ++ [rule] ∧
      (f.span = s ∧ f.rule = rule ∨ f.span.overlaps s = true) := by
  have upTo : taken (before ++ [rule]) number line =
      takeAll number line (taken before number line) rule := by
    rw [taken_eq, taken_eq, List.foldl_append]
    rfl
  have later : taken (before ++ [rule]) number line <+: taken (before ++ rule :: after) number line := by
    rw [upTo, taken_eq (before ++ rule :: after), List.foldl_append, List.foldl_cons]
    exact prefix_foldl (prefix_takeAll number line) _ after
  obtain ⟨f, hf, reported⟩ := exists_mem_takeAll number (taken before number line) hs literal
  rw [← upTo] at hf
  exact ⟨f, later.subset hf, (marked_of_mem_taken hf).rule_mem, reported⟩

theorem isComment_iff : isComment marks line = true ↔
    ∃ mark ∈ marks, mark.toList <+: Text.trimStart line := by
  simp [isComment]

theorem not_isComment_iff : isComment marks line = false ↔
    ∀ mark ∈ marks, ¬ mark.toList <+: Text.trimStart line := by
  rw [← Bool.not_eq_true, isComment_iff]
  push Not
  rfl

/-- The line with this number; lines count from one. -/
def IsLine (source : String) (number : Nat) (line : List Char) : Prop :=
  1 ≤ number ∧ (Text.lines source.toList)[number - 1]? = some line

theorem isLine_iff {source : String} : IsLine source number line ↔
    (line, number) ∈ (Text.lines source.toList).zipIdx 1 :=
  List.mk_mem_zipIdx_iff_le_and_getElem?_sub.symm

theorem mem_ofText {source : String} : f ∈ ofText marks rules source ↔
    ∃ line number, IsLine source number line ∧ isComment marks line = false ∧
      f ∈ taken rules number line := by
  rw [ofText_eq_sortBy, mem_sortBy]
  simp only [unordered, List.mem_flatMap, Prod.exists, List.mem_ite_nil_left, Bool.not_eq_true, isLine_iff]

/-- Two findings on one line do not overlap. -/
theorem ofText_apart (marks : List String) (rules : List Rule) (source : String) :
    (ofText marks rules source).Pairwise fun f g => f.line = g.line → f.span.overlaps g.span = false := by
  rw [ofText_eq_sortBy]
  refine ((sortBy_perm order _).pairwise_iff fun apart same => Span.overlaps_symm (apart same.symm)).2 ?_
  refine List.pairwise_flatMap.2 ⟨fun l _ => ?_, (numbered_pairwise source).imp ?_⟩
  · by_cases comment : isComment marks l.1 = true
    · simp [comment]
    · simp only [comment, Bool.false_eq_true, if_false]
      refine (taken_apart rules l.2 l.1).imp ?_
      intro f g apart _
      exact apart
  · intro l m below f hf g hg same
    have first := line_of_mem_taken (List.mem_ite_nil_left.1 hf).2
    have second := line_of_mem_taken (List.mem_ite_nil_left.1 hg).2
    omega

/-- The findings come line by line, and on a line from left to right, each ending before the next. -/
theorem ofText_pairwise (marks : List String) (rules : List Rule) (source : String) :
    (ofText marks rules source).Pairwise fun f g =>
      f.line < g.line ∨ f.line = g.line ∧ f.span.stop ≤ g.span.start := by
  have rising : (ofText marks rules source).Pairwise fun f g => (order f g).isLE := by
    rw [ofText_eq_sortBy]
    exact sortBy_pairwise order _
  refine (rising.and (ofText_apart marks rules source)).imp_of_mem ?_
  intro f g _ hg ⟨le, apart⟩
  obtain ⟨line, number, -, -, hg⟩ := mem_ofText.1 hg
  rcases Nat.lt_trichotomy f.line g.line with above | same | below
  · exact .inl above
  · rw [order_of_line_eq same] at le
    have le : f.span.start ≤ g.span.start := Nat.isLE_compare.1 le
    exact .inr ⟨same, Span.stop_le_start (apart same) le (marked_of_mem_taken hg).start_lt_stop⟩
  · rw [Std.OrientedCmp.gt_of_lt (order_of_line_lt below)] at le
    cases le

/-- What is reported of a text: findings of the rules, each in its place, and for all else that the rules
mark a reason why it is not. -/
structure Exact (marks : List String) (rules : List Rule) (source : String) (found : List Finding) :
    Prop where
  /-- By line, and on a line by column. -/
  ascending : found.Pairwise fun f g => order f g = .lt
  /-- On a line none reaches into the next one. -/
  apart : found.Pairwise fun f g => f.line = g.line → f.span.stop ≤ g.span.start
  /-- A finding is a part of its line, marked by a rule, with a segment that is no placeholder; and the
  line is no comment. -/
  sound : ∀ f ∈ found, ∃ line, IsLine source f.line line ∧
    (∀ mark ∈ marks, ¬ mark.toList <+: Text.trimStart line) ∧
    (f.rule ∈ rules ∧ f.span ∈ f.rule.pattern.targets line) ∧
    (∃ front back, line = front ++ f.text ++ back ∧ front.length = f.span.start ∧
      f.span.stop = f.span.start + f.text.length) ∧
    f.text ≠ [] ∧
    ∃ g ∈ Text.split '/' f.text, Text.trim g ≠ [] ∧ Target.isPlaceholder (Text.trim g) = false
  /-- What a rule marks on a line that is no comment is reported when it has such a segment, or overlaps
  what the same rule or an earlier one has marked. -/
  complete : ∀ number line, IsLine source number line →
    (∀ mark ∈ marks, ¬ mark.toList <+: Text.trimStart line) →
    ∀ before rule after, rules = before ++ rule :: after → ∀ s ∈ rule.pattern.targets line,
      (∃ g ∈ Text.split '/' (s.slice line),
        Text.trim g ≠ [] ∧ Target.isPlaceholder (Text.trim g) = false) →
      ∃ f ∈ found, f.line = number ∧ (f.span = s ∧ f.rule = rule ∨
        f.rule ∈ before ++ [rule] ∧ f.span.start < s.stop ∧ s.start < f.span.stop)

theorem ofText_exact (marks : List String) (rules : List Rule) (source : String) :
    Exact marks rules source (ofText marks rules source) where
  ascending := by
    refine (ofText_pairwise marks rules source).imp_of_mem ?_
    intro f g hf _ before
    rcases before with above | ⟨same, apart⟩
    · exact order_of_line_lt above
    · obtain ⟨line, number, -, -, hf⟩ := mem_ofText.1 hf
      have some := (marked_of_mem_taken hf).start_lt_stop
      have lt : f.span.start < g.span.start := by omega
      rw [order_of_line_eq same]
      exact Nat.compare_eq_lt.2 lt
  apart := by
    refine (ofText_pairwise marks rules source).imp ?_
    intro f g before same
    omega
  sound := by
    intro f hf
    obtain ⟨line, number, stands, code, hf⟩ := mem_ofText.1 hf
    have marked := marked_of_mem_taken hf
    obtain rfl := marked.line_eq
    refine ⟨line, stands, not_isComment_iff.1 code, ⟨marked.rule_mem, marked.span_mem⟩, marked.placed, ?_, ?_⟩
    · exact Target.ne_nil_of_hasLiteral marked.literal
    · exact Target.hasLiteral_iff.1 marked.literal
  complete := by
    rintro number line stands code before rule after rfl s hs literal
    obtain ⟨f, hf, earlier, reported⟩ := exists_mem_taken number before after hs
      (Target.hasLiteral_iff.2 literal)
    have mem : f ∈ ofText marks (before ++ rule :: after) source :=
      mem_ofText.2 ⟨line, number, stands, not_isComment_iff.2 code, hf⟩
    refine ⟨f, mem, line_of_mem_taken hf, ?_⟩
    rcases reported with same | meets
    · exact .inl same
    · exact .inr ⟨earlier, Span.overlaps_iff.1 meets⟩

end Finding

/-- The calls and the imports in a text are what the rules of the language mark, each once and in its
place, and nothing that a rule marks is left out but for the sake of what is reported. -/
theorem extract_exact (l : Language) (source : String) (file : Path) :
    ∃ calls imports : List Finding,
      CallSite.extract l source file =
          calls.map (fun f => ⟨file, f.line, String.ofList f.text, f.rule.name, none⟩) ∧
        Import.extract l source file =
          imports.map (fun f => ⟨file, f.line, String.ofList f.text, f.rule.kind⟩) ∧
        Finding.Exact l.commentMarks l.callRules source calls ∧
          Finding.Exact l.commentMarks l.importRules source imports :=
  ⟨_, _, rfl, rfl, Finding.ofText_exact _ _ source, Finding.ofText_exact _ _ source⟩

/-- The rule for templates marks the path as well, but that is taken by then. -/
example : CallSite.extract .typescript "fetch(`$\x7bAPI\x7d/jobs`)" ⟨"a.ts"⟩ =
    [⟨⟨"a.ts"⟩, 1, "$\x7bAPI\x7d/jobs", "ts-fetch", none⟩] := by cbv

end ServiceMap
