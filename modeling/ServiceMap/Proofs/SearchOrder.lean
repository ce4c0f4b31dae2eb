import ServiceMap.Proofs.Foremost
import ServiceMap.Proofs.Search

/-! The order in which the depth-first search meets the nodes, when nodes and successors are listed in
ascending order. The way of the search is at all times the first of all simple paths to where it ends:
what a lesser turn would reach has been searched before. -/

namespace ServiceMap

/-- A graph whose nodes and successors are listed in ascending order. -/
structure Digraph.Ascending (g : Digraph) : Prop where
  nodes : g.nodes.Pairwise fun a b => compare a b = .lt
  successors : ∀ a, (g.successors a).Pairwise fun b c => compare b c = .lt

namespace Search

variable {g : Digraph} {s t : Search} {left : List String} {loops : List Loop}
  {node next a b : String} {way : List String} {rest : List Frame} {untried : List String}

/-- A node that the search has left for good. -/
def Done (s : Search) (a : String) : Prop := a ∉ s.fresh ∧ a ∉ s.path

/-- Whatever can be reached from `a` without meeting the way is done. -/
def Spent (g : Digraph) (s : Search) (way : List String) (a : String) : Prop :=
  ∀ walk, (a :: walk).IsChain g.Leads → (∀ b ∈ a :: walk, b ∉ way) → ∀ b ∈ a :: walk, s.Done b

theorem Spent.mono (h : s.Spent g way a) (more : ∀ b, s.Done b → t.Done b) : t.Spent g way a :=
  fun walk chain away b hb => more b (h walk chain away b hb)

theorem Spent.along (h : s.Spent g way a) (away : a ∉ way) (leads : g.Leads a b) :
    s.Spent g way b := fun walk chain apart c hc =>
  h (b :: walk) (.cons_cons leads chain) (List.forall_mem_cons.2 ⟨away, apart⟩) c
    (List.mem_cons_of_mem a hc)

theorem Spent.done (h : s.Spent g way a) (away : a ∉ way) : s.Done a :=
  h [] (.singleton a) (by simpa using away) a List.mem_cons_self

/-- What is done leads to what is done or to the way. -/
theorem Traced.done_leads (h : s.Traced g left loops) (proper : g.Proper) (done : s.Done a)
    (leads : g.Leads a b) : b ∈ s.path ∨ s.Done b := by
  have entered : ∀ {c}, c ∈ s.path ++ left → c ∈ s.path ∨ s.Done c := by
    intro c hc
    by_cases on : c ∈ s.path
    · exact .inl on
    · exact .inr ⟨h.not_mem_fresh proper hc, on⟩
  have there : a ∈ s.path ++ left := by
    have := h.partition.mem_iff.2 (proper.leads_mem leads).1
    simpa [done.1] using this
  rcases h.settled a there b leads with untried | forward | ⟨l, hl, arc⟩
  · exact absurd (h.mem_path_of_pending untried) done.2
  · exact entered (forward.subset (by simp))
  · obtain ⟨rfl, rfl⟩ := Prod.mk.inj arc
    exact entered ((h.loops_on l hl).sublist.subset (by simp [Loop.nodes]))

theorem Traced.spent (h : s.Traced g left loops) (proper : g.Proper) (done : s.Done a) :
    s.Spent g s.path a := by
  intro walk
  induction walk generalizing a with
  | nil =>
    intro _ _ b hb
    obtain rfl := List.mem_singleton.1 hb
    exact done
  | cons c walk ih =>
    intro chain away b hb
    obtain ⟨leads, chain⟩ := List.isChain_cons_cons.1 chain
    have apart : ∀ b ∈ c :: walk, b ∉ s.path := fun b hb => away b (List.mem_cons_of_mem _ hb)
    rcases List.mem_cons.1 hb with rfl | hb
    · exact done
    · have next := (h.done_leads proper done leads).resolve_left (apart c List.mem_cons_self)
      exact ih next chain apart b hb

/-- A node is spent when it is done and all that it leads to is spent beside it. -/
theorem spent_of_leads (more : ∀ b, s.Done b → t.Done b) (done : t.Done node)
    (h : ∀ b, g.Leads node b → s.Spent g (way ++ [node]) b) : t.Spent g way node := by
  -- a walk may come back to the node, and starts anew from there
  have walks : ∀ walk a, a = node ∨ s.Spent g (way ++ [node]) a → (a :: walk).IsChain g.Leads →
      (∀ b ∈ a :: walk, b ∉ way) → ∀ b ∈ a :: walk, t.Done b := by
    intro walk
    induction walk with
    | nil =>
      intro a from_ _ away b hb
      obtain rfl := List.mem_singleton.1 hb
      by_cases eq : b = node
      · exact eq ▸ done
      · have away := away b hb
        exact more b ((from_.resolve_left eq).done (by simp [away, eq]))
    | cons c walk ih =>
      intro a from_ chain away b hb
      obtain ⟨leads, chain⟩ := List.isChain_cons_cons.1 chain
      have apart : ∀ b ∈ c :: walk, b ∉ way := fun b hb => away b (List.mem_cons_of_mem _ hb)
      have awayA := away a List.mem_cons_self
      by_cases eq : a = node
      · subst eq
        rcases List.mem_cons.1 hb with rfl | hb
        · exact done
        · exact ih c (.inr (h c leads)) chain apart b hb
      · have spent := from_.resolve_left eq
        have away : a ∉ way ++ [node] := by simp [awayA, eq]
        rcases List.mem_cons.1 hb with rfl | hb
        · exact more b (spent.done away)
        · exact ih c (.inr (spent.along away leads)) chain apart b hb
  exact fun walk => walks walk node (.inl rfl)

/-- What has been tried from a node on the way is spent beside the way, or follows on it. -/
def TriedAt (g : Digraph) (s : Search) (way : List String) (inner : Option String) (f : Frame) :
    Prop :=
  ∃ tried, g.successors f.node = tried ++ f.untried ∧ ∀ a ∈ tried, a ∈ inner ∨ s.Spent g way a

/-- So for all nodes of the way, where `inner` follows on the innermost. -/
def Tried (g : Digraph) (s : Search) : Option String → List Frame → Prop
  | _, [] => True
  | inner, f :: rest =>
    s.TriedAt g ((f :: rest).map Frame.node).reverse inner f ∧ s.Tried g (some f.node) rest

theorem TriedAt.mono {inner : Option String} {f : Frame} (h : s.TriedAt g way inner f)
    (more : ∀ b, s.Done b → t.Done b) : t.TriedAt g way inner f := by
  obtain ⟨tried, all, spent⟩ := h
  exact ⟨tried, all, fun a ha => (spent a ha).imp_right fun spent => spent.mono more⟩

theorem Tried.mono {inner : Option String} {frames : List Frame} (h : s.Tried g inner frames)
    (more : ∀ b, s.Done b → t.Done b) : t.Tried g inner frames := by
  induction frames generalizing inner with
  | nil => trivial
  | cons f rest ih => exact ⟨h.1.mono more, ih h.2⟩

/-- The successor that follows on the way may be counted as spent once it is. -/
theorem Tried.close {f : Frame} (h : s.Tried g (some next) (f :: rest))
    (spent : s.Spent g ((f :: rest).map Frame.node).reverse next) : s.Tried g none (f :: rest) := by
  obtain ⟨⟨tried, all, each⟩, outer⟩ := h
  refine ⟨⟨tried, all, fun a ha => .inr ?_⟩, outer⟩
  rcases each a ha with eq | spent'
  · obtain rfl : next = a := by simpa using eq
    exact spent
  · exact spent'

/-- What a lesser turn on the way can reach is done, and so not where the way ends. -/
theorem foremost_of_passed (chain : s.path.IsChain g.Leads) (nodup : s.path.Nodup)
    (passed : ∀ c b t, s.path = c ++ b :: t → ∀ a, (∀ u ∈ c.getLast?, g.Leads u a) →
      compare a b = .lt → s.Spent g c a) : Foremost g.Leads s.path := by
  refine SimplePath.foremost ⟨chain, nodup⟩ fun c b t split a q lt way ends => ?_
  obtain ⟨-, beyond, joint⟩ := List.isChain_append.1 way.chain
  have spent := passed c b t split a (fun u hu => joint u hu a (by simp)) lt
  have away : ∀ b ∈ a :: q, b ∉ c := fun b hb mem =>
    (List.nodup_append.1 way.nodup).2.2 b mem b hb rfl
  obtain ⟨last, there⟩ : ∃ last, (a :: q).getLast? = some last := by simp [List.getLast?_cons]
  have done := spent q beyond away last (List.mem_of_mem_getLast? there)
  exact done.2 (List.mem_of_mem_getLast? (ends.symm.trans there))

/-- The state of a search that goes by ascending names. The way is the first of all simple paths to
where it ends, since whatever a lesser turn on it can reach is done; and every arc back to the way has
recorded its cycle. -/
structure Ordered (g : Digraph) (inner : Option String) (s : Search) : Prop where
  tried : s.Tried g inner s.stack
  passed : ∀ c b t, s.path = c ++ b :: t → ∀ a, (∀ u ∈ c.getLast?, g.Leads u a) →
    compare a b = .lt → s.Spent g c a
  foremost : ∀ c, c ≠ [] → c <+: s.path → Foremost g.Leads c
  recorded : ∀ p, Foremost g.Leads p → ∀ a ∈ p.getLast?, a ∉ s.fresh → ∀ b ∈ p, g.Leads a b →
    (a, b) ∈ s.pending ∨ leastFirst (p.dropWhile (· ≠ b)) ∈ s.found
  found_foremost : ∀ c ∈ s.found, ∃ p m, c = leastFirst m ∧ Foremost g.Leads (p ++ m)

namespace Ordered

variable {inner : Option String}

theorem start (proper : g.Proper) : (start g).Ordered g none where
  tried := trivial
  passed := by simp [Search.start]
  foremost := fun c ne part => absurd (List.prefix_nil.1 part) ne
  recorded := fun _ _ a _ new _ _ leads => absurd (proper.leads_mem leads).1 new
  found_foremost := by simp [Search.start]

/-- The first path to the innermost node is the way itself. -/
theorem eq_path (o : s.Ordered g inner) (last : node ∈ s.path.getLast?) {p : List String}
    (first : Foremost g.Leads p) (ends : node ∈ p.getLast?) : p = s.path := by
  have ne : s.path ≠ [] := by
    rintro nil
    simp [nil] at last
  exact first.unique (o.foremost s.path ne (List.prefix_refl _)) (ends.trans last.symm)

/-- A successor is taken up. If it is on the way, its arc has to be recorded. -/
theorem tick (o : s.Ordered g none) (found : List (List String))
    (top : s.stack = ⟨node, next :: untried⟩ :: rest) (last : node ∈ s.path.getLast?)
    (more : s.found ⊆ found)
    (first : ∀ c ∈ found, c ∈ s.found ∨ ∃ p m, c = leastFirst m ∧ Foremost g.Leads (p ++ m))
    (back : next ∈ s.path → leastFirst (s.path.dropWhile (· ≠ next)) ∈ found) :
    { s with stack := ⟨node, untried⟩ :: rest, found := found }.Ordered g (some next) := by
  constructor
  case tried =>
    have tried := o.tried
    rw [top] at tried
    obtain ⟨⟨tried, all, each⟩, outer⟩ := tried
    refine ⟨⟨tried ++ [next], by simpa using all, fun a ha => ?_⟩, outer.mono fun _ done => done⟩
    rcases List.mem_append.1 ha with ha | ha
    · exact .inr ((each a ha).resolve_left (by simp))
    · exact .inl (congrArg some (List.mem_singleton.1 ha).symm)
  case passed => exact o.passed
  case foremost => exact o.foremost
  case recorded =>
    intro p hp a ends new b hb leads
    rcases o.recorded p hp a ends new b hb leads with untried' | recorded
    · have all : s.pending = (node, next) :: (Frame.arcs ⟨node, untried⟩ ++ rest.flatMap Frame.arcs) := by
        simp [pending, top]
      rw [all, List.mem_cons] at untried'
      rcases untried' with eq | untried'
      · obtain ⟨rfl, rfl⟩ := Prod.mk.inj eq
        obtain rfl := o.eq_path last hp ends
        exact .inr (back hb)
      · exact .inl (by simpa [pending] using untried')
    · exact .inr (more recorded)
  case found_foremost =>
    intro c hc
    exact (first c hc).elim (o.found_foremost c) id

/-- A successor that is spent does not follow on the way. -/
theorem settle (o : s.Ordered g (some next)) (path : s.path = (s.stack.map Frame.node).reverse)
    (spent : s.Spent g s.path next) : s.Ordered g none := by
  refine ⟨?_, o.passed, o.foremost, o.recorded, o.found_foremost⟩
  have tried := o.tried
  rw [path] at spent
  cases stack : s.stack with
  | nil => trivial
  | cons f rest =>
    rw [stack] at tried spent
    exact tried.close spent

theorem enter (o : s.Ordered g (some next)) (traced : (s.enter g next).Traced g left loops)
    (proper : g.Proper) (fresh : next ∈ s.fresh)
    (lesser : ∀ a, (∀ u ∈ s.path.getLast?, g.Leads u a) → compare a next = .lt →
      s.Spent g s.path a) : (s.enter g next).Ordered g none := by
  have more : ∀ a, s.Done a → (s.enter g next).Done a := by
    rintro a ⟨visited, away⟩
    have other : a ≠ next := fun eq => visited (eq ▸ fresh)
    exact ⟨fun mem => visited (List.mem_of_mem_erase mem), by simp [away, other]⟩
  have passed : ∀ c b t, (s.enter g next).path = c ++ b :: t → ∀ a,
      (∀ u ∈ c.getLast?, g.Leads u a) → compare a b = .lt → (s.enter g next).Spent g c a := by
    intro c b t split a leads lt
    rcases List.eq_nil_or_concat t with rfl | ⟨t, last, rfl⟩
    · obtain ⟨rfl, eq⟩ := List.append_inj' split rfl
      obtain rfl := List.singleton_inj.1 eq
      exact (lesser a leads lt).mono more
    · rw [List.concat_eq_append, ← List.cons_append, ← List.append_assoc] at split
      obtain ⟨split, -⟩ := List.append_inj' split rfl
      exact (o.passed c b t split a leads lt).mono more
  have nodup := traced.path_nodup proper
  constructor
  case tried => exact ⟨⟨[], rfl, by simp⟩, o.tried.mono more⟩
  case passed => exact passed
  case foremost =>
    intro c ne part
    rcases List.prefix_concat_iff.1 part with rfl | part
    · exact foremost_of_passed traced.chain nodup passed
    · exact o.foremost c ne part
  case recorded =>
    intro p hp a ends visited b hb leads
    rw [enter_pending, List.mem_append]
    by_cases eq : a = next
    · subst eq
      exact .inl (.inl (List.mem_map_of_mem leads))
    · have visited : a ∉ s.fresh := fun mem => visited ((List.mem_erase_of_ne eq).2 mem)
      exact (o.recorded p hp a ends visited b hb leads).imp_left .inr
  case found_foremost => exact o.found_foremost

theorem leave (o : s.Ordered g none) (traced : s.Traced g left loops) (proper : g.Proper)
    (top : s.stack = ⟨node, []⟩ :: rest) : (s.leave node rest).Ordered g none := by
  have path : s.path = (rest.map Frame.node).reverse ++ [node] := traced.path_eq top
  have shorter : (s.leave node rest).path = (rest.map Frame.node).reverse := by simp [path]
  have part : (s.leave node rest).path <+: s.path := List.dropLast_prefix _
  have more : ∀ a, s.Done a → (s.leave node rest).Done a := fun a done =>
    ⟨done.1, fun mem => done.2 (part.subset mem)⟩
  have done : (s.leave node rest).Done node := by
    refine ⟨traced.not_mem_fresh proper (by simp [path]), fun mem => ?_⟩
    have nodup := traced.path_nodup proper
    rw [path, List.nodup_append] at nodup
    rw [shorter] at mem
    exact nodup.2.2 node mem node (by simp) rfl
  constructor
  case tried =>
    have tried := o.tried
    rw [top] at tried
    obtain ⟨⟨tried, all, each⟩, outer⟩ := tried
    have spent : (s.leave node rest).Spent g (s.leave node rest).path node := by
      refine spent_of_leads more done fun b leads => ?_
      have mem : b ∈ tried := by
        have : b ∈ g.successors node := leads
        simpa [all] using this
      have spent := (each b mem).resolve_left (by simp)
      rw [shorter]
      simpa using spent
    have outer : (s.leave node rest).Tried g (some node) rest := outer.mono more
    show (s.leave node rest).Tried g none rest
    cases rest with
    | nil => trivial
    | cons f rest =>
      rw [shorter] at spent
      exact outer.close spent
  case passed =>
    intro c b t split a leads lt
    have whole : s.path = c ++ b :: (t ++ [node]) := by
      rw [path, ← shorter, split]
      simp
    exact (o.passed c b _ whole a leads lt).mono more
  case foremost => exact fun c ne hc => o.foremost c ne (hc.trans part)
  case recorded =>
    intro p hp a ends visited b hb leads
    rw [leave_pending top]
    exact o.recorded p hp a ends visited b hb leads
  case found_foremost => exact o.found_foremost

/-- What a step keeps: it takes up a successor and enters it, records it or passes it, or leaves. -/
theorem step (o : s.Ordered g none) (traced : s.Traced g left loops) (proper : g.Proper)
    (sorted : g.Ascending) (move : s.Move g t) : t.Ordered g none := by
  obtain ⟨_, _, after⟩ := traced.step proper move
  have last : ∀ {f : Frame} {rest : List Frame}, s.stack = f :: rest → f.node ∈ s.path.getLast? :=
    fun top => by simp [traced.path_eq top]
  have path : ∀ {f f' : Frame} {rest : List Frame}, s.stack = f :: rest → f'.node = f.node →
      s.path = ((f' :: rest).map Frame.node).reverse := fun top same => by
    simp [traced.path_eq top, same]
  have old : ∀ c ∈ s.found, c ∈ s.found ∨ ∃ p m, c = leastFirst m ∧ Foremost g.Leads (p ++ m) :=
    fun _ => .inl
  have off : ∀ {a : String}, a ∉ s.onPath → a ∉ s.path := fun away =>
    mt (fun mem => traced.onPath_eq ▸ List.mem_reverse.2 mem) away
  cases move with
  | leave top => exact o.leave traced proper top
  | @close node next untried rest top back =>
    have back : next ∈ s.path := by simpa [traced.onPath_eq] using back
    obtain ⟨front, split⟩ := List.dropWhile_suffix (l := s.path) (· ≠ next)
    have whole : s.path ≠ [] := List.ne_nil_of_mem back
    have first := o.foremost s.path whole (List.prefix_refl _)
    have ticked := o.tick (s.found ++ [leastFirst (s.path.dropWhile (· ≠ next))]) top
      (last top) (List.subset_append_left _ _) (fun c hc => by
        rcases List.mem_append.1 hc with hc | hc
        · exact .inl hc
        · exact .inr ⟨front, _, List.mem_singleton.1 hc, by rwa [split]⟩) (fun _ => by simp)
    refine ticked.settle (path top rfl) fun walk _ away => ?_
    exact absurd back (away next List.mem_cons_self)
  | @enter node next untried rest top away fresh =>
    have away := off away
    have ticked := o.tick s.found top (last top) (List.Subset.refl _) old (fun back => absurd back away)
    refine ticked.enter after proper fresh fun a leads lt => ?_
    have tried := o.tried
    rw [top] at tried
    obtain ⟨⟨tried, all, each⟩, -⟩ := tried
    have ascending := sorted.successors node
    have mem : a ∈ g.successors node := leads node (last top)
    rw [all] at ascending mem
    have spent := (each a (mem_before_of_lt ascending mem lt)).resolve_left (by simp)
    rwa [← path top rfl] at spent
  | @pass node next untried rest top away visited =>
    have away := off away
    have ticked := o.tick s.found top (last top) (List.Subset.refl _) old (fun back => absurd back away)
    exact ticked.settle (path top rfl) (traced.spent proper ⟨visited, away⟩)

theorem run (o : s.Ordered g none) (traced : s.Traced g left loops) (proper : g.Proper)
    (sorted : g.Ascending) : (s.run g).Ordered g none := by
  fun_induction Search.run g s generalizing left loops with
  | case1 s ended => exact o
  | case2 s t ht ih =>
    obtain ⟨_, _, after⟩ := traced.step proper (move_of_step? ht)
    exact ih (o.step traced proper sorted (move_of_step? ht)) after

/-- A search may start from a node once all lesser nodes are visited. -/
theorem visit (o : s.Ordered g none) (resting : s.Resting g) (proper : g.Proper)
    (sorted : g.Ascending) (lesser : ∀ a, compare a node = .lt → a ∉ s.fresh) :
    (s.visit g node).Ordered g none := by
  obtain ⟨left, loops, traced⟩ := resting.traced
  have path : s.path = [] := traced.path_nil resting.stack_nil
  unfold Search.visit
  split
  · next fresh =>
    have entered := traced.enter proper fresh (by simp [path])
    have alone : s.Ordered g (some node) :=
      ⟨by rw [resting.stack_nil]; trivial, o.passed, o.foremost, o.recorded, o.found_foremost⟩
    refine (alone.enter entered proper fresh fun a _ lt => ?_).run entered proper sorted
    exact traced.spent proper ⟨lesser a lt, by simp [path]⟩
  · exact o

theorem whole (proper : g.Proper) (sorted : g.Ascending) : (whole g).Ordered g none := by
  have first : (Search.start g).Resting g := ⟨rfl, _, _, .start g⟩
  have part : ∀ done rest, g.nodes = done ++ rest →
      (done.foldl (Search.visit g) (Search.start g)).Ordered g none := by
    intro done
    induction done using List.reverseRecOn with
    | nil => exact fun _ _ => start proper
    | append_singleton done node ih =>
      intro rest split
      rw [List.append_assoc] at split
      obtain ⟨resting, fewer, visited⟩ := first.visits proper done
      rw [List.foldl_append]
      refine (ih _ split).visit resting proper sorted fun a lt fresh => ?_
      have mem : a ∈ g.nodes := fewer.subset fresh
      have ascending := sorted.nodes
      rw [split] at ascending mem
      exact visited a (mem_before_of_lt ascending mem lt) fresh
  exact part g.nodes [] (List.append_nil _).symm

/-- In the end every arc has been tried. -/
theorem recorded_whole (o : (Search.whole g).Ordered g none) (proper : g.Proper) {p : List String}
    (first : Foremost g.Leads p) (ends : a ∈ p.getLast?) (mem : b ∈ p) (leads : g.Leads a b) :
    leastFirst (p.dropWhile (· ≠ b)) ∈ (Search.whole g).found := by
  have fromStart : (Search.start g).Resting g := ⟨rfl, _, _, .start g⟩
  obtain ⟨resting, -, visited⟩ := fromStart.visits proper g.nodes
  have stack : (Search.whole g).stack = [] := resting.stack_nil
  refine (o.recorded p first a ends (visited a (proper.leads_mem leads).1) b mem leads).resolve_left ?_
  simp [pending, stack]

end Ordered
end Search

theorem Digraph.ofEdges_ascending (edges : List Edge) : (ofEdges edges).Ascending where
  nodes := ascending_pairwise compare _
  successors := successors_ofEdges_pairwise edges

end ServiceMap
