import ModularBuild.Proofs.Graph.Growth

/-!
# What is refused is a cycle

The first search goes down one path at a time: the nodes that are discovered and not yet finished
lead to whatever lies above them on the stack (`Descends`). So a node that is finished earlier than
one it needs is reached from there. The second search looks for just such a pair, and the node it
answers lies on a cycle (`toposort_eq_error`). A graph that has an order has no cycle, so the
derivation of a plan is refused for a cycle exactly if there is one (`dependencyCycle_exact`).
-/

namespace ModularBuild

namespace Toposort

variable {needs neededBy : NodeId → List NodeId} {nodes stack : List NodeId}

/-! ## The path a search is on -/

/-- One node needs another directly, through others, or is the other. -/
def LeadsTo (needs : NodeId → List NodeId) : NodeId → NodeId → Prop :=
  Relation.ReflTransGen fun a b => b ∈ needs a

def Search.IsOpen (s : Search) (n : NodeId) : Prop := n ∉ s.undiscovered ∧ n ∉ s.finished

/-- A first search with `stack` to work off. The place of a node on the stack is its uppermost
one. -/
structure Descends (needs : NodeId → List NodeId) (nodes stack : List NodeId) (s : Search) :
    Prop where
  covers : Covers needs nodes stack s
  /-- An open node leads to everything above it. -/
  path : ∀ above x below, stack = above ++ x :: below →
    ∀ n ∈ nodes, s.IsOpen n → n ∉ above → LeadsTo needs n x
  /-- What an open node needs is discovered, or lies above it. -/
  pushed : ∀ above n below, stack = above ++ n :: below → s.IsOpen n → n ∉ above →
    ∀ d ∈ needs n, d ∉ s.undiscovered ∨ d ∈ above
  /-- What a finished node needs is finished, or is open and leads back to it. -/
  settled : ∀ a ∈ s.finished, ∀ b ∈ needs a, b ∈ nodes → b ∉ s.finished →
    s.IsOpen b ∧ LeadsTo needs b a
  /-- What was finished later than a node that needs it leads back to that node. -/
  ordered : s.finished.Pairwise fun b a => b ∈ needs a → LeadsTo needs b a

theorem descends_start (h : nodes.Nodup) : Descends needs nodes [] { undiscovered := nodes } where
  covers := covers_start h
  path above x below h := by simp at h
  pushed above n below h := by simp at h
  settled a ha := by cases ha
  ordered := .nil

theorem Descends.push {s : Search} (h : Descends needs nodes [] s) {n : NodeId}
    (hn : n ∈ s.undiscovered) : Descends needs nodes [n] s where
  covers := h.covers.push hn
  path above x below _ m hm hopen _ := by
    -- Where nothing is left to work off, nothing is open.
    rcases h.covers.covered m hm with hm | hm | hm
    · exact absurd hm hopen.1
    · exact absurd hm hopen.2
    · cases hm
  pushed above m below hstack hopen _ := by
    have hm : m ∈ [n] := by simp [hstack]
    rw [List.mem_singleton] at hm
    exact absurd (hm ▸ hn) hopen.1
  settled := h.settled
  ordered := h.ordered

theorem Descends.leadsTo_top {s : Search} {n : NodeId} {rest : List NodeId}
    (h : Descends needs nodes (n :: rest) s) {m : NodeId} (hm : m ∈ nodes) (hopen : s.IsOpen m) :
    LeadsTo needs m n :=
  h.path [] n rest rfl m hm hopen List.not_mem_nil

theorem Descends.discover {s : Search} {n : NodeId} {rest : List NodeId}
    (h : Descends needs nodes (n :: rest) s) (hloop : n ∉ needs n) :
    Descends needs nodes
      (((needs n).filter (· ∈ s.undiscovered.erase n)).reverse ++ n :: rest)
      { s with undiscovered := s.undiscovered.erase n } := by
  generalize hpushed : ((needs n).filter (· ∈ s.undiscovered.erase n)).reverse = pushed
  have hmem : ∀ x, x ∈ pushed ↔ x ∈ needs n ∧ x ∈ s.undiscovered.erase n := fun x => by
    rw [← hpushed, List.mem_reverse, List.mem_filter, decide_eq_true_iff]
  have hnodup := h.covers.nodup_undiscovered
  have hcovers := h.covers.discover hloop
  rw [hpushed] at hcovers
  -- Only the node on top has become open.
  have hopened : ∀ {m}, ({ s with undiscovered := s.undiscovered.erase n } : Search).IsOpen m →
      m ≠ n → s.IsOpen m := fun hopen hne =>
    ⟨fun hm => hopen.1 ((List.mem_erase_of_ne hne).mpr hm), hopen.2⟩
  have htop : ∀ m ∈ nodes, ({ s with undiscovered := s.undiscovered.erase n } : Search).IsOpen m →
      LeadsTo needs m n := fun m hm hopen => by
    by_cases hne : m = n
    · exact hne ▸ .refl
    · exact h.leadsTo_top hm (hopened hopen hne)
  refine ⟨hcovers, ?path, ?pushed, ?settled, h.ordered⟩
  case path =>
    intro above x below hstack m hm hopen habove
    obtain ⟨as, rfl, has⟩ | ⟨bs, hbs, hx⟩ := List.append_eq_append_iff.mp hstack
    · cases as with
      | nil =>
        cases has
        exact htop m hm hopen
      | cons a as =>
        obtain ⟨rfl, hrest⟩ := List.cons_eq_cons.mp has
        have hne : m ≠ n := fun e => habove (by simp [e])
        refine h.path (n :: as) x below (by rw [hrest]; rfl) m hm (hopened hopen hne) fun hmem => ?_
        exact habove (List.mem_append_right _ hmem)
    · cases bs with
      | nil =>
        cases hx
        exact htop m hm hopen
      | cons b bs =>
        obtain ⟨rfl, -⟩ := List.cons_eq_cons.mp hx
        have hxn : x ∈ needs n := ((hmem x).mp (by simp [hbs])).1
        exact (htop m hm hopen).tail hxn
  case pushed =>
    intro above m below hstack hopen habove d hd
    have hmp : m ∉ pushed := fun hmem' => hopen.1 ((hmem m).mp hmem').2
    obtain ⟨as, rfl, has⟩ | ⟨bs, hbs, hx⟩ := List.append_eq_append_iff.mp hstack
    · cases as with
      | nil =>
        cases has
        by_cases hdu : d ∈ s.undiscovered.erase n
        · exact .inr (by simpa using (hmem d).mpr ⟨hd, hdu⟩)
        · exact .inl hdu
      | cons a as =>
        obtain ⟨rfl, hrest⟩ := List.cons_eq_cons.mp has
        have hne : m ≠ n := fun e => habove (by simp [e])
        rcases h.pushed (n :: as) m below (by rw [hrest]; rfl) (hopened hopen hne)
          (fun hmem => habove (List.mem_append_right _ hmem)) d hd with hd | hd
        · exact .inl fun hmem => hd (List.mem_of_mem_erase hmem)
        · exact .inr (List.mem_append_right _ hd)
    · cases bs with
      | nil =>
        cases hx
        by_cases hdu : d ∈ s.undiscovered.erase n
        · exact .inr (by simpa [hbs] using (hmem d).mpr ⟨hd, hdu⟩)
        · exact .inl hdu
      | cons b bs =>
        obtain ⟨rfl, -⟩ := List.cons_eq_cons.mp hx
        exact absurd (by simp [hbs]) hmp
  case settled =>
    intro a ha b hb hnode hfin
    obtain ⟨hopen, hback⟩ := h.settled a ha b hb hnode hfin
    exact ⟨⟨fun hmem => hopen.1 (List.mem_of_mem_erase hmem), hopen.2⟩, hback⟩

theorem Descends.pop {s : Search} {n : NodeId} {rest : List NodeId}
    (h : Descends needs nodes (n :: rest) s) (hundiscovered : n ∉ s.undiscovered)
    (hn : n ∈ s.finished) : Descends needs nodes rest s where
  covers := h.covers.pop hn
  path above x below hstack m hm hopen habove := by
    have hne : m ≠ n := fun e => hopen.2 (e ▸ hn)
    refine h.path (n :: above) x below (by rw [hstack]; rfl) m hm hopen fun hmem => ?_
    exact (List.mem_cons.mp hmem).elim hne habove
  pushed above m below hstack hopen habove d hd := by
    have hne : m ≠ n := fun e => hopen.2 (e ▸ hn)
    rcases h.pushed (n :: above) m below (by rw [hstack]; rfl) hopen
      (fun hmem => (List.mem_cons.mp hmem).elim hne habove) d hd with hd | hd
    · exact .inl hd
    · refine (List.mem_cons.mp hd).imp_left fun e => ?_
      rwa [e]
  settled := h.settled
  ordered := h.ordered

theorem Descends.finish {s : Search} {n : NodeId} {rest : List NodeId}
    (h : Descends needs nodes (n :: rest) s) (hundiscovered : n ∉ s.undiscovered)
    (hn : n ∉ s.finished) :
    Descends needs nodes rest { s with finished := n :: s.finished } := by
  have hopened : ∀ {m}, ({ s with finished := n :: s.finished } : Search).IsOpen m →
      m ≠ n ∧ s.IsOpen m := fun hopen =>
    ⟨fun e => hopen.2 (e ▸ List.mem_cons_self), hopen.1,
      fun hm => hopen.2 (List.mem_cons_of_mem _ hm)⟩
  refine ⟨h.covers.finish hn, ?path, ?pushed, ?settled, ?ordered⟩
  case path =>
    intro above x below hstack m hm hopen habove
    obtain ⟨hne, hopen⟩ := hopened hopen
    refine h.path (n :: above) x below (by rw [hstack]; rfl) m hm hopen fun hmem => ?_
    exact (List.mem_cons.mp hmem).elim hne habove
  case pushed =>
    intro above m below hstack hopen habove d hd
    obtain ⟨hne, hopen⟩ := hopened hopen
    rcases h.pushed (n :: above) m below (by rw [hstack]; rfl) hopen
      (fun hmem => (List.mem_cons.mp hmem).elim hne habove) d hd with hd | hd
    · exact .inl hd
    · refine (List.mem_cons.mp hd).imp_left fun e => ?_
      rwa [e]
  case settled =>
    intro a ha b hb hnode hfin
    have hbfin : b ∉ s.finished := fun hmem => hfin (List.mem_cons_of_mem _ hmem)
    rcases List.mem_cons.mp ha with rfl | ha
    · -- Everything that the node needs is discovered by now, and what is open leads to the top.
      have hbopen : s.IsOpen b :=
        ⟨(h.pushed [] a rest rfl ⟨hundiscovered, hn⟩ List.not_mem_nil b hb).resolve_right
          List.not_mem_nil, hbfin⟩
      exact ⟨⟨hbopen.1, hfin⟩, h.leadsTo_top hnode hbopen⟩
    · obtain ⟨hopen, hback⟩ := h.settled a ha b hb hnode hbfin
      exact ⟨⟨hopen.1, hfin⟩, hback⟩
  case ordered =>
    refine List.pairwise_cons.mpr ⟨fun a ha hna => ?_, h.ordered⟩
    exact (h.settled a ha n hna (h.covers.stack_mem n List.mem_cons_self) hn).2

/-! ## The first search -/

theorem descends_finishFrom {s s' : Search} (hs : finishFrom needs stack s = .ok s')
    (h : Descends needs nodes stack s) : Descends needs nodes [] s' := by
  fun_induction finishFrom needs stack s with
  | case1 s =>
    cases hs
    exact h
  | case2 s n rest hn hloop => cases hs
  | case3 s n rest hn hloop undiscovered pushed ih => exact ih hs (h.discover hloop)
  | case4 s n rest hn hfin ih => exact ih hs (h.pop hn hfin)
  | case5 s n rest hn hfin ih => exact ih hs (h.finish hn hfin)

theorem needs_self_of_finishFrom {s : Search} {n : NodeId}
    (hs : finishFrom needs stack s = .error n) : n ∈ needs n := by
  fun_induction finishFrom needs stack s with
  | case1 s => cases hs
  | case2 s m rest hm hloop =>
    cases hs
    exact hloop
  | case3 s m rest hm hloop undiscovered pushed ih => exact ih hs
  | case4 s m rest hm hfin ih => exact ih hs
  | case5 s m rest hm hfin ih => exact ih hs

/-- The first search goes down paths only, or it meets a node that needs itself. -/
theorem finishEach_cases (l : List NodeId) {s : Search} (h : Descends needs nodes [] s) :
    match l.foldlM (fun s n => if n ∈ s.undiscovered then finishFrom needs [n] s else .ok s) s with
    | .ok s' => Descends needs nodes [] s'
    | .error n => n ∈ needs n := by
  induction l generalizing s with
  | nil => exact h
  | cons m l ih =>
    rw [List.foldlM_cons]
    by_cases hm : m ∈ s.undiscovered
    · rw [if_pos hm]
      cases hfrom : finishFrom needs [m] s with
      | error n => exact needs_self_of_finishFrom hfrom
      | ok s₁ => exact ih (descends_finishFrom hfrom (h.push hm))
    · rw [if_neg hm]
      exact ih h

/-! ## The second search -/

theorem head_visited_mem {undiscovered visited : List NodeId} {n : NodeId}
    (h : (collectFrom neededBy stack undiscovered).1 = n :: visited) :
    n ∈ stack ∧ n ∈ undiscovered := by
  fun_induction collectFrom neededBy stack undiscovered with
  | case1 => cases h
  | case2 undiscovered m rest hm undiscovered' pushed visited' left hrest =>
    obtain ⟨rfl, -⟩ := List.cons_eq_cons.mp h
    exact ⟨List.mem_cons_self, hm⟩
  | case3 undiscovered m rest hm ih =>
    obtain ⟨hn, hu⟩ := ih h
    exact ⟨List.mem_cons_of_mem _ hn, hu⟩

/-- The search from a node answers the second node it visits, which needs the first; or else it
visits the node alone and is followed by the rest of the searches. -/
theorem secondInComponent?_cases {undiscovered rest : List NodeId} {n : NodeId}
    (hnodup : undiscovered.Nodup) (hn : n ∈ undiscovered) :
    (∃ second, secondInComponent? neededBy undiscovered (n :: rest) = some second ∧
      second ∈ neededBy n ∧ second ∈ undiscovered.erase n) ∨
    ∃ left, secondInComponent? neededBy undiscovered (n :: rest) =
      secondInComponent? neededBy left rest ∧ left.Nodup ∧
      ∀ x, x ∈ left ↔ x ∈ undiscovered.erase n := by
  have hleft : ∀ x, x ∈ (collectFrom neededBy [n] undiscovered).2 ↔
      x ∈ undiscovered ∧ x ∉ (collectFrom neededBy [n] undiscovered).1 :=
    fun _ => mem_left_iff hnodup
  have hleftNodup : (collectFrom neededBy [n] undiscovered).2.Nodup := nodup_left hnodup
  have hvisited : ∃ visited, (collectFrom neededBy [n] undiscovered).1 = n :: visited ∧
      ∀ second more, visited = second :: more →
        second ∈ neededBy n ∧ second ∈ undiscovered.erase n := by
    rw [collectFrom, if_pos hn]
    refine ⟨_, rfl, fun second more hmore => ?_⟩
    obtain ⟨hsecond, hundiscovered⟩ := head_visited_mem hmore
    rw [List.append_nil, List.mem_reverse] at hsecond
    exact ⟨(List.mem_filter.mp hsecond).1, hundiscovered⟩
  rw [secondInComponent?]
  generalize collectFrom neededBy [n] undiscovered = searched at *
  obtain ⟨visited, left⟩ := searched
  obtain ⟨more, rfl, hmore⟩ := hvisited
  cases more with
  | nil =>
    refine .inr ⟨left, rfl, hleftNodup, fun x => ?_⟩
    rw [hleft x, hnodup.mem_erase_iff, List.mem_singleton, and_comm]
  | cons second more => exact .inl ⟨second, rfl, hmore second more rfl⟩

theorem split_of_secondInComponent? {order undiscovered : List NodeId} (horder : order.Nodup)
    (hnodup : undiscovered.Nodup) (hmem : ∀ n, n ∈ undiscovered ↔ n ∈ order) {second : NodeId}
    (h : secondInComponent? neededBy undiscovered order = some second) :
    ∃ before n after, order = before ++ n :: after ∧ second ∈ after ∧ second ∈ neededBy n := by
  induction order generalizing undiscovered with
  | nil => cases h
  | cons n rest ih =>
    obtain ⟨hn, hrest⟩ := List.nodup_cons.mp horder
    have herase : ∀ x, x ∈ undiscovered.erase n ↔ x ∈ rest := fun x => by
      rw [hnodup.mem_erase_iff, hmem x, List.mem_cons]
      exact ⟨fun ⟨hne, hx⟩ => hx.resolve_left hne, fun hx => ⟨fun e => hn (e ▸ hx), .inr hx⟩⟩
    have hn' : n ∈ undiscovered := (hmem n).mpr List.mem_cons_self
    obtain ⟨found, hfound, hneeded, hafter⟩ | ⟨left, heq, hleftNodup, hleft⟩ :=
      secondInComponent?_cases hnodup hn'
    · rw [hfound] at h
      cases h
      exact ⟨[], n, rest, rfl, (herase _).mp hafter, hneeded⟩
    · rw [heq] at h
      obtain ⟨before, k, after, rfl, hafter, hneeded⟩ :=
        ih hrest hleftNodup (fun x => (hleft x).trans (herase x)) h
      exact ⟨n :: before, k, after, rfl, hafter, hneeded⟩

/-- A node that is answered instead of an order lies on a cycle. -/
theorem order_eq_error (hnodes : nodes.Nodup) (hconverse : ∀ a b, a ∈ neededBy b → b ∈ needs a)
    {n : NodeId} (h : order needs neededBy nodes = .error n) :
    Relation.TransGen (fun a b => b ∈ needs a) n n := by
  have hcases : match finishAll needs nodes with
      | .ok s => Descends needs nodes [] s
      | .error m => m ∈ needs m :=
    finishEach_cases nodes (descends_start hnodes)
  unfold order at h
  cases hfinish : finishAll needs nodes with
  | error m =>
    rw [hfinish] at h hcases
    cases h
    exact .single hcases
  | ok s =>
    have hperm := (finishAll_spec hnodes hfinish).1
    rw [hfinish] at h hcases
    dsimp only [bind, Except.bind] at h
    cases hsecond : secondInComponent? neededBy nodes s.finished with
    | none => rw [hsecond] at h; cases h
    | some second =>
      rw [hsecond] at h
      cases h
      -- The node was finished before one that it needs, which therefore leads back to it.
      obtain ⟨before, k, after, hsplit, hafter, hneeded⟩ := split_of_secondInComponent?
        (hperm.nodup_iff.mpr hnodes) hnodes (fun x => (hperm.mem_iff (a := x)).symm) hsecond
      have hordered := hcases.ordered
      rw [hsplit] at hordered
      have hback := (List.pairwise_cons.mp (List.pairwise_append.mp hordered).2.1).1 n hafter
      exact .head' (hconverse _ _ hneeded) (hback (hconverse _ _ hneeded))

end Toposort

namespace ArtifactGraph

variable {g : ArtifactGraph} {f : FileNames} {plan : Plan} {policy : LinkPolicy} {mode : BuildMode}

/-! ## Graphs with a cycle -/

/-- A node that is answered instead of an order of the graph needs itself, perhaps through
others. -/
theorem toposort_eq_error {n : NodeId} (h : g.toposort = .error n) : g.ReachesStrictly n n :=
  Toposort.order_eq_error g.nodup_ids
    (fun _ _ hmem => mem_dependencies.mpr (mem_dependents.mp hmem)) h

theorem toposort_eq_ok_iff (hg : g.EdgesWithin) :
    (∃ order, g.toposort = .ok order) ↔ ∀ n, ¬ g.ReachesStrictly n n := by
  constructor
  · exact fun horder n => Ordered.not_reachesStrictly_self ⟨hg, horder⟩ n
  · intro hacyclic
    cases h : g.toposort with
    | ok order => exact ⟨order, rfl⟩
    | error n => exact absurd (toposort_eq_error h) (hacyclic n)

/-! ## Derivations with a cycle -/

theorem grows_constructed (h : constructed plan f policy mode = .ok g) : Grows initial g := by
  unfold constructed at h
  cases hinputs : withInputs plan f policy with
  | error e => rw [hinputs] at h; cases h
  | ok g₀ =>
    rw [hinputs] at h
    refine (grows_withInputs hinputs).trans ?_
    dsimp only [Except.bind] at h
    split at h
    · exact grows_addShorthands h
    · cases h
      exact .refl

theorem exists_of_foldlM_eq_error {α : Type}
    {add : ArtifactGraph → α → Except PlanError ArtifactGraph} {l : List α} {e : PlanError}
    (h : l.foldlM add g = .error e) :
    ∃ g' a, add g' a = .error e := by
  induction l generalizing g with
  | nil => cases h
  | cons a l ih =>
    rw [List.foldlM_cons] at h
    cases ha : add g a with
    | ok g₁ =>
      rw [ha] at h
      exact ih h
    | error e' =>
      rw [ha] at h
      cases h
      exact ⟨g, a, ha⟩

theorem withInputs_eq_error {e : PlanError} (h : withInputs plan f policy = .error e) :
    ∃ artifact input, e = .inputOutsideProject artifact input := by
  obtain ⟨g₁, ⟨file, rule⟩, hentry⟩ := exists_of_foldlM_eq_error h
  unfold addRuleInputs at hentry
  cases hfind : g₁.findPath? (f.path (.ofName .generated file)) with
  | none => simp [hfind] at hentry
  | some n =>
    cases rule with
    | none => cases hentry
    | some rule =>
      simp only [hfind] at hentry
      obtain ⟨g₂, input, hinput⟩ := exists_of_foldlM_eq_error hentry
      unfold addRuleInput at hinput
      split at hinput
      · exact ⟨file.toString, input, (Except.error.inj hinput).symm⟩
      · cases hinput

theorem collectShorthands_eq_error {taken : SortedMap String Shorthand} {wanted : List Shorthand}
    {e : PlanError} (h : collectShorthands taken wanted = .error e) :
    ∃ name first second, e = .aliasCollision name first second := by
  induction wanted generalizing taken with
  | nil => cases h
  | cons s wanted ih =>
    unfold collectShorthands at h
    cases hfind : taken.find? s.name with
    | none =>
      simp only [hfind] at h
      exact ih h
    | some other =>
      simp only [hfind, Except.error.injEq] at h
      exact ⟨_, _, _, h.symm⟩

theorem addShorthands_eq_error {e : PlanError} (h : (addShorthands f g).result = .error e) :
    ∃ name first second, e = .aliasCollision name first second := by
  unfold addShorthands at h
  cases hcollect : collectShorthands ∅ (g.wantedShorthands f) with
  | error e' =>
    rw [hcollect] at h
    cases h
    exact collectShorthands_eq_error hcollect
  | ok taken => rw [hcollect] at h; cases h

/-- A graph is constructed unless an input lies outside the project or two artifacts ask for one
shorthand name. -/
theorem constructed_eq_error {e : PlanError} (h : constructed plan f policy mode = .error e) :
    (∃ artifact input, e = .inputOutsideProject artifact input) ∨
      ∃ name first second, e = .aliasCollision name first second := by
  unfold constructed at h
  cases hinputs : withInputs plan f policy with
  | error e' =>
    rw [hinputs] at h
    cases h
    exact .inl (withInputs_eq_error hinputs)
  | ok g =>
    rw [hinputs] at h
    dsimp only [Except.bind] at h
    split at h
    · exact .inr (addShorthands_eq_error h)
    · cases h

/-- **Derivation refuses cycles, and nothing but cycles.** Where no other error arises there is a
constructed graph; it is refused for a cycle exactly if it has one, by the name of a node that lies
on one, and is otherwise what the derivation answers. -/
theorem dependencyCycle_exact
    (hinputs : ∀ artifact input,
      (derive plan f policy mode).result ≠ .error (.inputOutsideProject artifact input))
    (hnames : ∀ name first second,
      (derive plan f policy mode).result ≠ .error (.aliasCollision name first second)) :
    ∃ g, constructed plan f policy mode = .ok g ∧
      ((∃ name, (derive plan f policy mode).result = .error (.dependencyCycle name)) ↔
        ∃ n, g.ReachesStrictly n n) ∧
      (∀ name, (derive plan f policy mode).result = .error (.dependencyCycle name) →
        ∃ n, g.ReachesStrictly n n ∧ g.displayName n = name) ∧
      ((∀ n, ¬ g.ReachesStrictly n n) → (derive plan f policy mode).result = .ok g) := by
  rw [result_derive] at hinputs hnames ⊢
  cases hconstructed : constructed plan f policy mode with
  | error e =>
    rw [hconstructed] at hinputs hnames
    obtain ⟨artifact, input, rfl⟩ | ⟨name, first, second, rfl⟩ := constructed_eq_error hconstructed
    · exact absurd rfl (hinputs artifact input)
    · exact absurd rfl (hnames name first second)
  | ok g =>
    have hwithin := ((grows_constructed hconstructed).wellFormed wellFormed_initial).edgesWithin
    refine ⟨g, rfl, ?_⟩
    show ((∃ name, checkAcyclic g = _) ↔ _) ∧ (∀ name, checkAcyclic g = _ → _) ∧
      (_ → checkAcyclic g = _)
    unfold checkAcyclic
    cases hsort : g.toposort with
    | ok order =>
      have hacyclic := (toposort_eq_ok_iff hwithin).mp ⟨order, hsort⟩
      exact ⟨⟨nofun, fun ⟨n, hn⟩ => absurd hn (hacyclic n)⟩, nofun, fun _ => rfl⟩
    | error n =>
      have hcycle := toposort_eq_error hsort
      refine ⟨⟨fun _ => ⟨n, hcycle⟩, fun _ => ⟨_, rfl⟩⟩, fun name hname => ⟨n, hcycle, ?_⟩,
        fun hacyclic => absurd hcycle (hacyclic n)⟩
      cases hname
      rfl

/-! ## A rule that needs what needs it -/

/-- Two generated files, each made from the other. -/
def loopPlan : Plan where
  project := "demo"
  modules := SortedMap.insert ∅ ⟨"gen"⟩ ()
  generated := (SortedMap.insert ∅ ⟨⟨"gen"⟩, "a.txt"⟩ (some ⟨["make-a"], ["b.txt"]⟩)).insert
    ⟨⟨"gen"⟩, "b.txt"⟩ (some ⟨["make-b"], ["a.txt"]⟩)

def loop : ArtifactGraph := (withInputs loopPlan {} .everyLibrary).toOption.getD {}

theorem constructs_loop : Constructs loopPlan {} .everyLibrary (.standalone ⟨"gen"⟩) loop
    [(6, 5), (5, 6), (0, 6), (4, 6), (0, 5), (4, 5)] 7 :=
  ⟨constructed_of_withInputs (eq_ok_of_isSome (by rfl)) rfl, by rfl, by rfl⟩

theorem toposort_loop : loop.toposort = .error 6 := by
  rw [constructs_loop.toposort]
  cbv

/-- The loop is refused by the name of one of its files. -/
theorem dependencyCycle_exact_loop :
    (derive loopPlan {} .everyLibrary (.standalone ⟨"gen"⟩)).result =
        .error (.dependencyCycle "gen/b.txt") ∧
      ∃ n, loop.ReachesStrictly n n ∧ loop.displayName n = "gen/b.txt" := by
  have hresult : (derive loopPlan {} .everyLibrary (.standalone ⟨"gen"⟩)).result =
      .error (.dependencyCycle "gen/b.txt") := by
    have hname : loop.displayName 6 = "gen/b.txt" := by rfl
    rw [result_derive, constructs_loop.constructed]
    show checkAcyclic loop = _
    simp only [checkAcyclic, toposort_loop, hname]
  obtain ⟨g, hg, -, hcycle, -⟩ := dependencyCycle_exact
    (fun artifact input h => by rw [hresult] at h; cases h)
    (fun name first second h => by rw [hresult] at h; cases h)
  cases constructs_loop.constructed.symm.trans hg
  exact ⟨hresult, hcycle _ hresult⟩

end ArtifactGraph

end ModularBuild
