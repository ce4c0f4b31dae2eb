import ServiceMap.Text.Blank
import ServiceMap.Text.Split

/-! Call targets: URLs, paths and API names as they stand in source text, cut down to the segments
by which they are compared. -/

namespace ServiceMap.Target

open Text

/-- What follows the first place where `mark` stands. -/
def after? (mark : List Char) : List Char → Option (List Char)
  | [] => if mark = [] then some [] else none
  | c :: r => if mark.isPrefixOf (c :: r) then some ((c :: r).drop mark.length) else after? mark r

/-- Without scheme and authority. -/
def dropOrigin (s : List Char) : List Char :=
  match after? [':', '/', '/'] s with
  | some rest => rest.dropWhile (· ≠ '/')
  | none => s

def dropQuery (s : List Char) : List Char := s.takeWhile (· ≠ '?')

/-- Cut at the first `#` that is not followed by a brace: `#` and a brace open an interpolation. -/
def dropFragment : List Char → List Char
  | [] => []
  | c :: r => if c = '#' && r.head? ≠ some '{' then [] else c :: dropFragment r

/-- A target as it is compared: its path alone, without slashes at the ends. Case is kept. -/
def normalize (s : List Char) : List Char :=
  strip '/' (dropFragment (dropQuery (dropOrigin (trim s))))

def segments (s : List Char) : List (List Char) := (split '/' s).filter (· ≠ [])

/-- A slash ends a segment and starts none. -/
theorem segments_append_slash (s t : List Char) :
    segments (s ++ '/' :: t) = segments s ++ segments t := by
  rw [segments, split_append_sep, List.filter_append]
  rfl

/-- Segments that stand for a value known only when the program runs: `${x}`, `#{x}`, `{x}`, `%d`
and `:id`. -/
def isPlaceholder (segment : List Char) : Bool :=
  ['$', '{'].isPrefixOf segment || ['#', '{'].isPrefixOf segment ||
    (segment.head? = some '{' && segment.getLast? = some '}') ||
    segment.head? = some '%' || segment.head? = some ':'

/-- Whether a segment of `s` names something by itself. -/
def hasLiteral (s : List Char) : Bool :=
  ((split '/' s).map trim).any fun g => g ≠ [] && !isPlaceholder g

/-- Whether `needle` stands at some place of the list. -/
def occursIn {α : Type} [DecidableEq α] (needle : List α) : List α → Bool
  | [] => needle.isEmpty
  | a :: r => needle.isPrefixOf (a :: r) || occursIn needle r

theorem occursIn_iff {α : Type} [DecidableEq α] {needle l : List α} :
    occursIn needle l = true ↔ needle <:+: l := by
  induction l with
  | nil => simp [occursIn]
  | cons a l ih =>
    rw [occursIn, Bool.or_eq_true, ih, List.isPrefixOf_iff_prefix, List.infix_cons_iff]

/-- Whether `needle` is a run of neighbours in `haystack`. The empty run does not count. -/
def containsRun {α : Type} [DecidableEq α] (haystack needle : List α) : Bool :=
  !needle.isEmpty && occursIn needle haystack

theorem containsRun_iff {α : Type} [DecidableEq α] {haystack needle : List α} :
    containsRun haystack needle = true ↔ needle ≠ [] ∧ needle <:+: haystack := by
  simp [containsRun, occursIn_iff]

end ServiceMap.Target
