/-! Text cut at a separator, and into lines. -/

namespace ServiceMap.Text

/-- One more character in front of the first piece. -/
def growFirst (c : Char) : List (List Char) → List (List Char)
  | [] => [[c]]
  | p :: ps => (c :: p) :: ps

/-- The pieces of `s` between the occurrences of `sep`; there is always at least one. -/
def split (sep : Char) (s : List Char) : List (List Char) :=
  s.foldr (fun c ps => if c = sep then [] :: ps else growFirst c ps) [[]]

@[simp] theorem split_nil (sep : Char) : split sep [] = [[]] := rfl

theorem split_cons (sep c : Char) (s : List Char) :
    split sep (c :: s) = if c = sep then [] :: split sep s else growFirst c (split sep s) := rfl

theorem split_ne_nil (sep : Char) (s : List Char) : split sep s ≠ [] := by
  cases s with
  | nil => simp
  | cons c s =>
    rw [split_cons]
    split
    · simp
    · cases split sep s <;> simp [growFirst]

/-- The pieces with `sep` between them. -/
def joinWith (sep : Char) : List (List Char) → List Char
  | [] => []
  | [p] => p
  | p :: ps => p ++ sep :: joinWith sep ps

theorem joinWith_growFirst (sep c : Char) (ps : List (List Char)) :
    joinWith sep (growFirst c ps) = c :: joinWith sep ps := by
  cases ps with
  | nil => rfl
  | cons p ps => cases ps <;> rfl

theorem joinWith_split (sep : Char) (s : List Char) : joinWith sep (split sep s) = s := by
  induction s with
  | nil => rfl
  | cons c s ih =>
    rw [split_cons]
    split
    · next h =>
      subst h
      cases hs : split c s with
      | nil => exact absurd hs (split_ne_nil c s)
      | cons p ps =>
        rw [show joinWith c ([] :: p :: ps) = c :: joinWith c (p :: ps) from rfl, ← hs, ih]
    · rw [joinWith_growFirst, ih]

theorem growFirst_append {c : Char} {ps : List (List Char)} (ne : ps ≠ []) (qs : List (List Char)) :
    growFirst c (ps ++ qs) = growFirst c ps ++ qs := by
  cases ps with
  | nil => exact absurd rfl ne
  | cons p ps => rfl

/-- A separator cuts a text in two. -/
theorem split_append_sep (sep : Char) (s t : List Char) :
    split sep (s ++ sep :: t) = split sep s ++ split sep t := by
  induction s with
  | nil => simp [split_cons]
  | cons c s ih =>
    rw [List.cons_append, split_cons, split_cons, ih]
    split
    · rfl
    · exact growFirst_append (split_ne_nil sep s) _

/-- Characters that pass, in front of a text that starts with none, are cut off as they are. -/
theorem takeWhile_dropWhile_append {p : Char → Bool} {s t : List Char} (pass : ∀ c ∈ s, p c = true)
    (stop : ∀ c ∈ t.head?, p c = false) : (s ++ t).takeWhile p = s ∧ (s ++ t).dropWhile p = t := by
  rw [List.takeWhile_append_of_pos pass, List.dropWhile_append_of_pos pass]
  cases t with
  | nil => simp
  | cons c t =>
    have last : p c = false := stop c rfl
    simp [last]

theorem split_of_not_mem {sep : Char} {s : List Char} (h : sep ∉ s) : split sep s = [s] := by
  induction s with
  | nil => rfl
  | cons c s ih =>
    have other : c ≠ sep := fun eq => h (eq ▸ List.mem_cons_self)
    rw [split_cons, if_neg other, ih fun mem => h (List.mem_cons_of_mem _ mem)]
    rfl

theorem not_mem_of_mem_split {sep : Char} {s p : List Char} (h : p ∈ split sep s) : sep ∉ p := by
  induction s generalizing p with
  | nil => simp_all
  | cons c s ih =>
    rw [split_cons] at h
    split at h
    · rcases List.mem_cons.1 h with rfl | h
      · simp
      · exact ih h
    · next other =>
      cases hs : split sep s with
      | nil => exact absurd hs (split_ne_nil sep s)
      | cons q qs =>
        rw [hs] at h ih
        rcases List.mem_cons.1 h with rfl | h
        · have free : sep ∉ q := ih List.mem_cons_self
          simp [Ne.symm other, free]
        · exact ih (List.mem_cons_of_mem _ h)

theorem split_joinWith {sep : Char} {ps : List (List Char)} (ne : ps ≠ [])
    (free : ∀ p ∈ ps, sep ∉ p) : split sep (joinWith sep ps) = ps := by
  induction ps with
  | nil => exact absurd rfl ne
  | cons p ps ih =>
    have first : split sep p = [p] := split_of_not_mem (free p List.mem_cons_self)
    cases ps with
    | nil => exact first
    | cons q qs =>
      rw [show joinWith sep (p :: q :: qs) = p ++ sep :: joinWith sep (q :: qs) from rfl,
        split_append_sep, first, ih (by simp) fun r hr => free r (List.mem_cons_of_mem _ hr)]
      rfl

/-- The carriage return of a line ending, dropped. -/
def dropReturn (l : List Char) : List Char :=
  if l.getLast? = some '\r' then l.dropLast else l

/-- What `lines` makes of the pieces between line feeds. -/
def linesOfPieces : List (List Char) → List (List Char)
  | [] => []
  | [l] => if l = [] then [] else [l]
  | l :: ls => dropReturn l :: linesOfPieces ls

/-- A line ends at a line feed, and a carriage return before that belongs to the ending. A last
line without line feed stands as it is, and nothing follows a last line feed. -/
def lines (s : List Char) : List (List Char) := linesOfPieces (split '\n' s)

end ServiceMap.Text
