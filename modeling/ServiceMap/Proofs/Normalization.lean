import Mathlib.Data.List.Infix
import Mathlib.Data.List.TakeWhile
import ServiceMap.Reference.Resolution

/-! Call targets put together from an origin, a path, a query and a fragment. What is left of such a
target is its path, unless what follows the path has a delimiter in it by which an earlier part is
found: then the path is looked for behind that delimiter. -/

namespace ServiceMap

namespace Text

variable {s t : List Char}

/-- No white space at the start. -/
def StartsPlain (s : List Char) : Prop := ∀ c ∈ s.head?, isBlank c = false

/-- No white space at the end. -/
def EndsPlain (s : List Char) : Prop := ∀ c ∈ s.getLast?, isBlank c = false

-- not by inference: that may find the instance which goes through all characters
instance : Decidable (StartsPlain s) := Option.decidableForallMem s.head?

instance : Decidable (EndsPlain s) := Option.decidableForallMem s.getLast?

theorem dropWhile_append_of_head {p : Char → Bool} (ne : t ≠ []) (stop : ∀ c ∈ t.head?, p c = false) :
    (s ++ t).dropWhile p = s.dropWhile p ++ t := by
  induction s with
  | nil =>
    cases t with
    | nil => exact absurd rfl ne
    | cons c t => simp [stop c rfl]
  | cons c s ih =>
    rw [List.cons_append, List.dropWhile_cons, List.dropWhile_cons, ih]
    split <;> rfl

theorem trimStart_append (ne : t ≠ []) (plain : StartsPlain t) :
    trimStart (s ++ t) = trimStart s ++ t :=
  dropWhile_append_of_head ne plain

theorem trimEnd_append (ne : s ≠ []) (plain : EndsPlain s) : trimEnd (s ++ t) = s ++ trimEnd t := by
  unfold trimEnd
  rw [List.reverse_append, dropWhile_append_of_head (by simpa using ne)]
  · simp
  · simpa [EndsPlain] using plain

theorem trimStart_eq_self (plain : StartsPlain s) : trimStart s = s := by
  cases s with
  | nil => rfl
  | cons c s => exact trimStart_append (s := []) (by simp) plain

theorem trimEnd_eq_self (plain : EndsPlain s) : trimEnd s = s := by
  by_cases ne : s = []
  · rw [ne]
    rfl
  · have all := trimEnd_append (t := []) ne plain
    rwa [List.append_nil, show trimEnd [] = [] from rfl, List.append_nil] at all

theorem StartsPlain.append (hs : StartsPlain s) (ht : StartsPlain t) : StartsPlain (s ++ t) := by
  cases s with
  | nil => exact ht
  | cons c s => exact hs

theorem EndsPlain.append (hs : EndsPlain s) (ht : EndsPlain t) : EndsPlain (s ++ t) := by
  intro c hc
  rw [List.getLast?_append] at hc
  rcases Option.or_eq_some_iff.1 hc with last | ⟨-, last⟩
  · exact ht c last
  · exact hs c last

theorem EndsPlain.cons {c : Char} (hc : isBlank c = false) (ht : EndsPlain t) : EndsPlain (c :: t) :=
  EndsPlain.append (s := [c]) (by simpa [EndsPlain] using hc) ht

theorem trimStart_sublist (s : List Char) : (trimStart s).Sublist s := List.dropWhile_sublist _

theorem trimEnd_sublist (s : List Char) : (trimEnd s).Sublist s := by
  have inner := (List.dropWhile_sublist isBlank (l := s.reverse)).reverse
  rwa [List.reverse_reverse] at inner

end Text

namespace Target

open Text

/-- What stands between the scheme of an origin and its authority. -/
def originMark : List Char := [':', '/', '/']

section After

variable {mark s t : List Char}

/-- A mark that starts in `s` ends there, when `t` goes on with something that is not in it. -/
theorem prefix_of_prefix_append (h : mark <+: s ++ t) (other : ∀ c ∈ t.head?, c ∉ mark) : mark <+: s := by
  obtain ⟨rest, eq⟩ := h
  rcases List.append_eq_append_iff.1 eq with ⟨more, within, -⟩ | ⟨further, eq, behind⟩
  · exact ⟨more, within.symm⟩
  · cases further with
    | nil => exact ⟨[], by simpa using eq⟩
    | cons c further => exact absurd (by simp [eq]) (other c (by simp [behind]))

theorem after?_eq_none_iff (ne : mark ≠ []) : after? mark s = none ↔ ¬ mark <:+: s := by
  induction s with
  | nil => simp [after?, ne]
  | cons c s ih =>
    rw [after?, List.infix_cons_iff, not_or, ← ih]
    split
    · next start => simp [List.isPrefixOf_iff_prefix.1 start]
    · next away => simp [mt List.isPrefixOf_iff_prefix.2 away]

/-- The mark is looked for behind `s` when it is not in it. -/
theorem after?_append (h : ¬ mark <:+: s) (other : ∀ c ∈ t.head?, c ∉ mark) :
    after? mark (s ++ t) = after? mark t := by
  induction s with
  | nil => rfl
  | cons c s ih =>
    rw [List.infix_cons_iff, not_or] at h
    have away : ¬ mark <+: (c :: s) ++ t := fun start => h.1 (prefix_of_prefix_append start other)
    rw [List.cons_append] at away ⊢
    rw [after?, if_neg (by simpa using away)]
    exact ih h.2

/-- The first mark is the one behind a scheme. -/
theorem after?_scheme (free : '/' ∉ s) : after? originMark (s ++ (originMark ++ t)) = some t := by
  induction s with
  | nil => rfl
  | cons c s ih =>
    obtain ⟨-, rest⟩ : '/' ≠ c ∧ '/' ∉ s := by simpa using free
    have away : ¬ originMark <+: c :: (s ++ (originMark ++ t)) := by
      intro start
      -- the slash that ends the mark would stand in the scheme
      have second := (List.cons_prefix_cons.1 start).2
      cases s with
      | nil => exact absurd second (by simp [originMark])
      | cons d s =>
        obtain ⟨rfl, -⟩ := List.cons_prefix_cons.1 second
        simp at rest
    rw [List.cons_append, after?, if_neg (by simpa using away)]
    exact ih rest

theorem dropOrigin_of_mark (found : after? originMark s = some t) :
    dropOrigin s = t.dropWhile (· ≠ '/') := by
  unfold dropOrigin
  rw [show after? [':', '/', '/'] s = some t from found]

theorem dropOrigin_of_none (found : after? originMark s = none) : dropOrigin s = s := by
  unfold dropOrigin
  rw [show after? [':', '/', '/'] s = none from found]

end After

theorem dropQuery_append {s t : List Char} (free : '?' ∉ s) : dropQuery (s ++ t) = s ++ dropQuery t := by
  refine List.takeWhile_append_of_pos fun c hc => ?_
  have other : c ≠ '?' := fun eq => free (eq ▸ hc)
  simp [other]

theorem dropFragment_append {s t : List Char} (free : '#' ∉ s) :
    dropFragment (s ++ t) = s ++ dropFragment t := by
  induction s with
  | nil => rfl
  | cons c s ih =>
    obtain ⟨other, rest⟩ : '#' ≠ c ∧ '#' ∉ s := by simpa using free
    rw [List.cons_append, dropFragment, if_neg (by simp [other.symm]), ih rest]
    rfl

/-- A target by its parts. The origin is a scheme and an authority. -/
structure Parts where
  origin : Option (List Char × List Char)
  path : List Char
  query : Option (List Char)
  fragment : Option (List Char)

namespace Parts

/-- The query and the fragment, each behind its delimiter. -/
def tail (p : Parts) : List Char :=
  (p.query.elim [] ('?' :: ·)) ++ p.fragment.elim [] ('#' :: ·)

def text (p : Parts) : List Char :=
  match p.origin with
  | none => p.path ++ p.tail
  | some (scheme, authority) => scheme ++ (originMark ++ (authority ++ (p.path ++ p.tail)))

/-- The target without its query and fragment. -/
def bare (p : Parts) : Parts := { p with query := none, fragment := none }

structure WellFormed (p : Parts) : Prop where
  origin_free : ∀ o ∈ p.origin, ∀ s ∈ [o.1, o.2], '/' ∉ s ∧ '?' ∉ s ∧ '#' ∉ s
  no_query : '?' ∉ p.path
  no_fragment : '#' ∉ p.path
  no_mark : ¬ originMark <:+: p.path
  path_starts : StartsPlain p.path
  path_ends : EndsPlain p.path
  path_rooted : p.origin.isSome → p.path ≠ [] → p.path.head? = some '/'
  query_ends : ∀ q ∈ p.query, EndsPlain q
  fragment_ends : ∀ f ∈ p.fragment, EndsPlain f
  /-- A brace would make it an interpolation. -/
  fragment_starts : ∀ f ∈ p.fragment, f.head? ≠ some '{'

/-- The query and the fragment have no delimiter in them by which an earlier part is found: the mark of
an origin where the target has none, a slash where nothing else ends the authority. -/
def Plain (p : Parts) : Prop :=
  match p.origin with
  | none => ¬ originMark <:+: p.tail
  | some _ => p.path = [] → '/' ∉ p.tail

/-- Where the path is looked for when there is such a delimiter. -/
def astray (p : Parts) : List Char :=
  match p.origin with
  | none => ((after? originMark p.tail).getD []).dropWhile (· ≠ '/')
  | some _ => p.tail.dropWhile (· ≠ '/')

variable {p : Parts}

theorem tail_head (p : Parts) : ∀ c ∈ p.tail.head?, c = '?' ∨ c = '#' := by
  intro c hc
  unfold tail at hc
  cases query : p.query with
  | some q => exact .inl (by simpa [query, eq_comm] using hc)
  | none =>
    cases fragment : p.fragment with
    | some f => exact .inr (by simpa [query, fragment, eq_comm] using hc)
    | none => simp [query, fragment] at hc

theorem tail_startsPlain (p : Parts) : StartsPlain p.tail := by
  intro c hc
  rcases p.tail_head c hc with rfl | rfl <;> decide

theorem WellFormed.tail_endsPlain (wf : p.WellFormed) : EndsPlain p.tail := by
  unfold tail
  apply EndsPlain.append
  · cases query : p.query with
    | none => simp [EndsPlain]
    | some q => exact .cons (by decide) (wf.query_ends q query)
  · cases fragment : p.fragment with
    | none => simp [EndsPlain]
    | some f => exact .cons (by decide) (wf.fragment_ends f fragment)

theorem WellFormed.cut_tail (wf : p.WellFormed) : dropFragment (dropQuery p.tail) = [] := by
  unfold tail
  cases query : p.query with
  | some q => simp [dropQuery, dropFragment]
  | none =>
    cases fragment : p.fragment with
    | none => rfl
    | some f =>
      -- a question mark in the fragment cuts it short, but leaves the mark in front of it
      have kept : dropQuery ('#' :: f) = '#' :: dropQuery f := rfl
      have starts : (dropQuery f).head? ≠ some '{' := by
        have brace := wf.fragment_starts f fragment
        cases f with
        | nil => simp [dropQuery]
        | cons c f =>
          by_cases cut : c = '?'
          · simp [dropQuery, cut]
          · simpa [dropQuery, cut] using brace
      simp only [Option.elim, List.nil_append, kept]
      rw [dropFragment, if_pos (by simp [starts])]

theorem WellFormed.cut (wf : p.WellFormed) : dropFragment (dropQuery (p.path ++ p.tail)) = p.path := by
  rw [dropQuery_append wf.no_query, dropFragment_append wf.no_fragment, wf.cut_tail, List.append_nil]

theorem WellFormed.startsPlain (wf : p.WellFormed) : StartsPlain (p.path ++ p.tail) :=
  wf.path_starts.append p.tail_startsPlain

theorem WellFormed.endsPlain (wf : p.WellFormed) : EndsPlain (p.path ++ p.tail) :=
  wf.path_ends.append wf.tail_endsPlain

/-- Without an origin the first mark counts, and that is one of the query or the fragment. -/
theorem WellFormed.dropOrigin_without (wf : p.WellFormed) (origin : p.origin = none) :
    dropOrigin (trim p.text) =
      match after? originMark p.tail with
      | some rest => rest.dropWhile (· ≠ '/')
      | none => p.path ++ p.tail := by
  have text : trim p.text = p.path ++ p.tail := by
    unfold trim Parts.text
    rw [origin]
    dsimp only
    rw [trimStart_eq_self wf.startsPlain, trimEnd_eq_self wf.endsPlain]
  have other : ∀ c ∈ p.tail.head?, c ∉ originMark := by
    intro c hc
    rcases p.tail_head c hc with rfl | rfl <;> decide
  have behind : after? originMark (p.path ++ p.tail) = after? originMark p.tail :=
    after?_append wf.no_mark other
  rw [text]
  cases found : after? originMark p.tail with
  | none => exact dropOrigin_of_none (behind.trans found)
  | some rest => exact dropOrigin_of_mark (behind.trans found)

/-- The trimming takes white space from an origin only. -/
theorem WellFormed.trim_text (wf : p.WellFormed) {scheme authority : List Char}
    (origin : p.origin = some (scheme, authority)) :
    ∃ front host, trim p.text = front ++ (originMark ++ (host ++ (p.path ++ p.tail))) ∧
      front.Sublist scheme ∧ host.Sublist authority := by
  have mark : EndsPlain (trimStart scheme ++ originMark) := by
    intro c hc
    obtain rfl : '/' = c := by simpa [originMark, List.getLast?_append] using hc
    decide
  have text : trim p.text =
      trimStart scheme ++ (originMark ++ trimEnd (authority ++ (p.path ++ p.tail))) := by
    unfold trim Parts.text
    rw [origin]
    dsimp only
    rw [trimStart_append (by simp [originMark]) (by simp [originMark, StartsPlain]; decide),
      ← List.append_assoc, trimEnd_append (by simp [originMark]) mark, List.append_assoc]
  by_cases none : p.path ++ p.tail = []
  · refine ⟨trimStart scheme, trimEnd authority, ?_, trimStart_sublist _, trimEnd_sublist _⟩
    rw [text, none, List.append_nil, List.append_nil]
  · have ends : EndsPlain (authority ++ (p.path ++ p.tail)) := by
      intro c hc
      rw [List.getLast?_append_of_ne_nil _ none] at hc
      exact wf.endsPlain c hc
    refine ⟨trimStart scheme, authority, ?_, trimStart_sublist _, List.Sublist.refl _⟩
    rw [text, trimEnd_eq_self ends]

/-- Behind an origin the first slash counts. -/
theorem WellFormed.dropOrigin_behind (wf : p.WellFormed) {scheme authority : List Char}
    (origin : p.origin = some (scheme, authority)) :
    dropOrigin (trim p.text) = (p.path ++ p.tail).dropWhile (· ≠ '/') := by
  have inScheme : '/' ∉ scheme := (wf.origin_free _ origin scheme (by simp)).1
  have inAuthority : '/' ∉ authority := (wf.origin_free _ origin authority (by simp)).1
  obtain ⟨front, host, text, ofScheme, ofAuthority⟩ := wf.trim_text origin
  have found : after? originMark (trim p.text) = some (host ++ (p.path ++ p.tail)) := by
    rw [text]
    exact after?_scheme fun mem => inScheme (ofScheme.subset mem)
  rw [dropOrigin_of_mark found]
  apply List.dropWhile_append_of_pos
  intro c hc
  exact decide_eq_true fun slash => inAuthority (ofAuthority.subset (slash ▸ hc))

/-- A path behind an origin starts with the slash that is looked for. -/
theorem WellFormed.path_kept (wf : p.WellFormed) (origin : p.origin.isSome) (some : p.path ≠ []) :
    (p.path ++ p.tail).dropWhile (· ≠ '/') = p.path ++ p.tail := by
  have rooted := wf.path_rooted origin some
  cases path : p.path with
  | nil => exact absurd path some
  | cons c cs =>
    obtain rfl : c = '/' := by simpa [path] using rooted
    simp

theorem WellFormed.normalize_of_plain (wf : p.WellFormed) (plain : p.Plain) :
    normalize p.text = strip '/' p.path := by
  unfold normalize
  unfold Plain at plain
  cases origin : p.origin with
  | none =>
    rw [origin] at plain
    have none : after? originMark p.tail = none := (after?_eq_none_iff (by decide)).2 plain
    rw [wf.dropOrigin_without origin, none]
    dsimp only
    rw [wf.cut]
  | some o =>
    rw [origin] at plain
    rw [wf.dropOrigin_behind origin]
    by_cases empty : p.path = []
    · have noSlash : ∀ c ∈ p.tail, (decide (c ≠ '/')) = true := by
        intro c hc
        exact decide_eq_true fun eq => plain empty (eq ▸ hc)
      rw [empty, List.nil_append, List.dropWhile_eq_nil_iff.2 noSlash]
      rfl
    · rw [wf.path_kept (by simp [origin]) empty, wf.cut]

theorem WellFormed.normalize_of_not_plain (wf : p.WellFormed) (h : ¬ p.Plain) :
    normalize p.text = strip '/' (dropFragment (dropQuery p.astray)) := by
  unfold normalize astray
  unfold Plain at h
  cases origin : p.origin with
  | none =>
    rw [origin] at h
    rw [wf.dropOrigin_without origin]
    cases found : after? originMark p.tail with
    | none => exact absurd ((after?_eq_none_iff (by decide)).1 found) h
    | some rest => rfl
  | some o =>
    rw [origin] at h
    obtain ⟨empty, -⟩ : p.path = [] ∧ '/' ∈ p.tail := by simpa using h
    rw [wf.dropOrigin_behind origin, empty, List.nil_append]

theorem WellFormed.bare (wf : p.WellFormed) : p.bare.WellFormed where
  origin_free := wf.origin_free
  no_query := wf.no_query
  no_fragment := wf.no_fragment
  no_mark := wf.no_mark
  path_starts := wf.path_starts
  path_ends := wf.path_ends
  path_rooted := wf.path_rooted
  query_ends := by simp [Parts.bare]
  fragment_ends := by simp [Parts.bare]
  fragment_starts := by simp [Parts.bare]

theorem bare_plain (p : Parts) : p.bare.Plain := by
  have none : p.bare.tail = [] := rfl
  unfold Plain
  rw [none]
  split
  · simp [originMark]
  · simp

end Parts
end Target

open Target

/-- Targets that are the same when they are cut down to their paths reach the same API. -/
theorem Registry.resolve?_congr (r : Registry) {target other : String}
    (same : normalize target.toList = normalize other.toList) : r.resolve? target = r.resolve? other := by
  unfold Registry.resolve?
  rw [same]

/-- What is left of a target is its path, whatever its origin, query and fragment, and so neither of the
two changes what the target reaches, unless one of them has a delimiter in it by which an earlier part
is found. With such a delimiter the path is what stands behind it. -/
theorem normalize_parts (p : Parts) (wf : p.WellFormed) :
    (p.Plain → normalize p.text = Text.strip '/' p.path ∧
        ∀ r : Registry, r.resolve? (String.ofList p.text) = r.resolve? (String.ofList p.bare.text)) ∧
      (¬ p.Plain → normalize p.text = Text.strip '/' (dropFragment (dropQuery p.astray))) := by
  refine ⟨fun plain => ?_, wf.normalize_of_not_plain⟩
  have path : normalize p.text = Text.strip '/' p.path := wf.normalize_of_plain plain
  refine ⟨path, fun r => r.resolve?_congr ?_⟩
  rw [String.toList_ofList, String.toList_ofList, path, wf.bare.normalize_of_plain p.bare_plain]
  rfl

/-- A URL with all parts. What looks like an origin, a query or a fragment in its tail is neither. -/
def linkParts : Parts where
  origin := some (" https".toList, "api.internal:8443".toList)
  path := "/api/test-cases/".toList
  query := some "next=http://host/users?page=2#top".toList
  fragment := some "/jobs#\x7bid\x7d".toList

theorem normalize_parts_link :
    linkParts.WellFormed ∧ linkParts.Plain ∧ normalize linkParts.text = "api/test-cases".toList ∧
      ∀ r : Registry, r.resolve? (String.ofList linkParts.text) =
        r.resolve? " https://api.internal:8443/api/test-cases/" := by
  have wf : linkParts.WellFormed := by
    constructor <;> decide
  have plain : linkParts.Plain := by
    intro empty
    exact absurd empty (by decide)
  obtain ⟨path, same⟩ := (normalize_parts linkParts wf).1 plain
  exact ⟨wf, plain, path, same⟩

/-- A target without an origin, and a URL in its query. -/
def redirectParts : Parts := ⟨none, "/jobs".toList, some "next=http://host/users".toList, none⟩

/-- A target without a path, and a slash in its query. -/
def hostParts : Parts := ⟨some ("http".toList, "host".toList), [], some "q=/users".toList, none⟩

def jobsRegistry : Registry where
  projectRoot := ⟨"/"⟩
  services := [⟨"people", .go, ⟨"/p"⟩, ⟨"p"⟩, ⟨none, none, false⟩, ["jobs", "users"], [], []⟩]

/-- The query is taken for the path. -/
theorem query_hides_path :
    (redirectParts.WellFormed ∧ normalize redirectParts.text ≠ Text.strip '/' redirectParts.path ∧
      jobsRegistry.resolve? "/jobs?next=http://host/users" = some ⟨"people", "users"⟩ ∧
        jobsRegistry.resolve? "/jobs" = some ⟨"people", "jobs"⟩) ∧
      hostParts.WellFormed ∧ normalize hostParts.text ≠ Text.strip '/' hostParts.path := by
  refine ⟨⟨?_, by decide, by cbv, by cbv⟩, ?_, by decide⟩
  · constructor <;> decide
  · constructor <;> decide

end ServiceMap
