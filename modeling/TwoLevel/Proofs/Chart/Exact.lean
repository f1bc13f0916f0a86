import TwoLevel.Chart.Exact
import TwoLevel.Proofs.Chart.Cost
import TwoLevel.Proofs.Chart.Greedy

/-!
# The exact search

A node of the search is left with the choices and the hits that it was entered with, and with a best
cover that is no dearer. When the limit has not cut the search below a node, the best cover is after
it no dearer than any cover that extends the choices made so far: if the choices are complete, they
are such a cover of least cost; if the branch is pruned, every extension has more implicants than
the best cover; and otherwise an extension has to cover the branch term, so it extends one of the
branches.

The search starts from the essential implicants, which every cover extends. So a search that is not
cut ends with a cover of least cost.
-/
namespace TwoLevel.Chart

/-- What the search selects: no implicant twice, and all essential ones. -/
structure IsSelection (chart : Chart) (selected : List Nat) : Prop where
  nodup : selected.Nodup
  lt_size : ∀ p ∈ selected, p < chart.primes.size
  essential : ∀ p ∈ chart.essentials, p ∈ selected

namespace Search

/-- Counts a node. -/
def enter (state : Search) : Search := { state with nodes := state.nodes + 1 }

/-- Explores with one more implicant chosen and takes it back afterwards. -/
def branch (chart : Chart) (inner : Search → Search) (state : Search) (p : Nat) : Search :=
  (inner (state.choose chart p)).release chart p

/-- What a stretch of the search keeps or only improves. -/
structure Advances (before after : Search) : Prop where
  chosen_eq : after.chosen = before.chosen
  hits_eq : after.hits = before.hits
  nodes_le : before.nodes ≤ after.nodes
  exhausted : before.exhausted = true → after.exhausted = true
  bestCost_le : after.bestCost ≤ before.bestCost

/-- The hits are those of the choices, and the best cover is a cover of the given cost. -/
structure Sound (chart : Chart) (state : Search) : Prop where
  chosen_selection : chart.IsSelection state.chosen
  hits_eq : state.hits = chart.hits state.chosen
  best_selection : chart.IsSelection state.best
  best_cover : chart.IsCover state.best
  bestCost_eq : state.bestCost = chart.cost state.best

end Search

open Search

/-! ### The branch term -/

theorem branchTerm_eq_none_iff (chart : Chart) (hits : Array Nat) :
    chart.branchTerm hits = none ↔ uncovered hits = [] := by
  unfold branchTerm
  split <;> simp_all

theorem fewerCoverers_eq (chart : Chart) (kept r : Nat) :
    chart.fewerCoverers kept r = kept ∨ chart.fewerCoverers kept r = r := by
  unfold fewerCoverers
  split
  · exact .inr rfl
  · exact .inl rfl

theorem foldl_fewerCoverers_mem (chart : Chart) (rest : List Nat) (first : Nat) :
    rest.foldl chart.fewerCoverers first ∈ first :: rest := by
  induction rest generalizing first with
  | nil => exact List.mem_cons_self
  | cons second rest ih =>
    rw [List.foldl_cons]
    rcases List.mem_cons.mp (ih (chart.fewerCoverers first second)) with here | later
    · rw [here]
      rcases fewerCoverers_eq chart first second with same | same
      · rw [same]
        exact List.mem_cons_self
      · rw [same]
        exact List.mem_cons_of_mem first List.mem_cons_self
    · exact List.mem_cons_of_mem first (List.mem_cons_of_mem second later)

theorem mem_of_branchTerm {chart : Chart} {hits : Array Nat} {r : Nat}
    (found : chart.branchTerm hits = some r) : r ∈ uncovered hits := by
  unfold branchTerm at found
  split at found
  · cases found
  next first rest listed =>
    rw [listed, ← Option.some.inj found]
    exact foldl_fewerCoverers_mem chart rest first

/-! ### One node -/

/-- What is done at a node that the limit does not cut. -/
def Search.visit (chart : Chart) (inner : Search → Search) (state : Search) : Search :=
  match chart.branchTerm state.hits with
  | none => state.finish chart
  | some r =>
    if state.bestCost.count < state.chosen.length + 1 then state
    else (chart.column r).foldl (branch chart inner) state

theorem explore_of_limit_le (chart : Chart) {limit : Nat} (budget : Nat) {state : Search}
    (reached : limit ≤ state.nodes) :
    chart.explore limit (budget + 1) state = { state with exhausted := true } := by
  rw [explore, if_pos reached]

theorem explore_of_nodes_lt (chart : Chart) {limit : Nat} (budget : Nat) {state : Search}
    (room : state.nodes < limit) :
    chart.explore limit (budget + 1) state
      = state.enter.visit chart (chart.explore limit budget) := by
  rw [explore, if_neg (Nat.not_le_of_lt room)]
  rfl

/-- A node is cut by the limit, or complete, or pruned, or it tries the column of its branch
term. -/
theorem explore_cases (chart : Chart) (limit budget : Nat) (state : Search) :
    (limit ≤ state.nodes
      ∧ chart.explore limit (budget + 1) state = { state with exhausted := true })
    ∨ (state.nodes < limit ∧ uncovered state.hits = []
      ∧ chart.explore limit (budget + 1) state = state.enter.finish chart)
    ∨ (state.nodes < limit ∧ ∃ r, chart.branchTerm state.hits = some r
      ∧ state.bestCost.count < state.chosen.length + 1
      ∧ chart.explore limit (budget + 1) state = state.enter)
    ∨ (state.nodes < limit ∧ ∃ r, chart.branchTerm state.hits = some r
      ∧ state.chosen.length + 1 ≤ state.bestCost.count
      ∧ chart.explore limit (budget + 1) state
        = (chart.column r).foldl (branch chart (chart.explore limit budget)) state.enter) := by
  by_cases reached : limit ≤ state.nodes
  · left
    exact ⟨reached, explore_of_limit_le chart budget reached⟩
  · have room : state.nodes < limit := Nat.lt_of_not_le reached
    have visited := explore_of_nodes_lt chart budget room
    right
    cases term : chart.branchTerm state.hits with
    | none =>
      left
      refine ⟨room, (branchTerm_eq_none_iff chart _).mp term, ?_⟩
      simp only [visited, visit, enter, term]
    | some r =>
      right
      by_cases full : state.bestCost.count < state.chosen.length + 1
      · left
        refine ⟨room, r, rfl, full, ?_⟩
        simp only [visited, visit, enter, term]
        exact if_pos full
      · right
        refine ⟨room, r, rfl, Nat.le_of_not_lt full, ?_⟩
        simp only [visited, visit, enter, term]
        exact if_neg full

/-! ### What a node keeps -/

namespace Search

theorem Advances.refl (state : Search) : state.Advances state :=
  ⟨rfl, rfl, Nat.le_refl _, id, le_refl _⟩

theorem Advances.trans {first second third : Search} (before : first.Advances second)
    (after : second.Advances third) : first.Advances third where
  chosen_eq := after.chosen_eq.trans before.chosen_eq
  hits_eq := after.hits_eq.trans before.hits_eq
  nodes_le := Nat.le_trans before.nodes_le after.nodes_le
  exhausted := after.exhausted ∘ before.exhausted
  bestCost_le := le_trans after.bestCost_le before.bestCost_le

theorem advances_enter (state : Search) : state.Advances state.enter :=
  ⟨rfl, rfl, Nat.le_succ _, id, le_refl _⟩

theorem finish_cases (chart : Chart) (state : Search) :
    (chart.cost state.chosen < state.bestCost ∧ state.finish chart
      = { state with best := state.chosen, bestCost := chart.cost state.chosen })
    ∨ (state.bestCost ≤ chart.cost state.chosen ∧ state.finish chart = state) := by
  by_cases cheaper : (chart.cost state.chosen).cheaper state.bestCost = true
  · left
    exact ⟨(Cost.cheaper_iff_lt _ _).mp cheaper, by simp only [finish, if_pos cheaper]⟩
  · right
    have dearer := mt (Cost.cheaper_iff_lt _ _).mpr cheaper
    exact ⟨not_lt.mp dearer, by simp only [finish, if_neg cheaper]⟩

theorem advances_finish (chart : Chart) (state : Search) : state.Advances (state.finish chart) := by
  rcases finish_cases chart state with ⟨cheaper, replaced⟩ | ⟨-, kept⟩
  · rw [replaced]
    exact ⟨rfl, rfl, Nat.le_refl _, id, le_of_lt cheaper⟩
  · rw [kept]
    exact Advances.refl state

theorem bestCost_finish_le (chart : Chart) (state : Search) :
    (state.finish chart).bestCost ≤ chart.cost state.chosen := by
  rcases finish_cases chart state with ⟨-, replaced⟩ | ⟨dearer, kept⟩
  · rw [replaced]
  · rw [kept]
    exact dearer

variable {chart : Chart} {inner : Search → Search}

theorem advances_branch (kept : ∀ state : Search, state.Advances (inner state)) (state : Search)
    (p : Nat) : state.Advances (state.branch chart inner p) := by
  have stretch := kept (state.choose chart p)
  refine ⟨?_, ?_, stretch.nodes_le, stretch.exhausted, stretch.bestCost_le⟩
  · change (inner (state.choose chart p)).chosen.tail = state.chosen
    rw [stretch.chosen_eq]
    rfl
  · change lower (inner (state.choose chart p)).hits (chart.row p) = state.hits
    rw [stretch.hits_eq]
    exact lower_raise state.hits (chart.row p)

theorem advances_foldl_branch (kept : ∀ state : Search, state.Advances (inner state))
    (branches : List Nat) (state : Search) :
    state.Advances (branches.foldl (branch chart inner) state) := by
  induction branches generalizing state with
  | nil => exact Advances.refl state
  | cons p rest ih => exact (advances_branch kept state p).trans (ih _)

end Search

/-- A node is left with the choices and the hits that it was entered with, and with a best cover
that is no dearer. -/
theorem advances_explore (chart : Chart) (limit budget : Nat) (state : Search) :
    state.Advances (chart.explore limit budget state) := by
  induction budget generalizing state with
  | zero => exact Advances.refl state
  | succ budget ih =>
    rcases explore_cases chart limit budget state with
      ⟨-, cut⟩ | ⟨-, -, leaf⟩ | ⟨-, -, -, -, pruned⟩ | ⟨-, r, -, -, branched⟩
    · rw [cut]
      exact ⟨rfl, rfl, Nat.le_refl _, fun _ => rfl, le_refl _⟩
    · rw [leaf]
      exact (advances_enter state).trans (advances_finish chart _)
    · rw [pruned]
      exact advances_enter state
    · rw [branched]
      exact (advances_enter state).trans (advances_foldl_branch ih _ _)

/-! ### The best cover stays a cover -/

namespace Search

theorem Sound.enter {chart : Chart} {state : Search} (sound : state.Sound chart) :
    state.enter.Sound chart :=
  ⟨sound.chosen_selection, sound.hits_eq, sound.best_selection, sound.best_cover, sound.bestCost_eq⟩

theorem Sound.finish {chart : Chart} {state : Search} (sound : state.Sound chart)
    (complete : uncovered state.hits = []) : (state.finish chart).Sound chart := by
  rw [sound.hits_eq, uncovered_eq_nil_iff] at complete
  rcases finish_cases chart state with ⟨-, replaced⟩ | ⟨-, kept⟩
  · rw [replaced]
    exact ⟨sound.chosen_selection, sound.hits_eq, sound.chosen_selection, complete, rfl⟩
  · rw [kept]
    exact sound

variable {chart : Chart} {inner : Search → Search} {r : Nat}

/-- An implicant in the column of an uncovered term is not chosen yet. -/
theorem Sound.choose {state : Search} (sound : state.Sound chart) {p : Nat}
    (free : r ∈ uncovered state.hits) (listed : p ∈ chart.column r) :
    (state.choose chart p).Sound chart := by
  have covered := (mem_column chart p r).mp listed
  -- If it were chosen, the term would be covered already.
  have fresh : p ∉ state.chosen := by
    intro member
    rw [sound.hits_eq] at free
    exact ((mem_uncovered chart _ r).mp free).2 p member covered
  refine ⟨⟨?_, ?_, ?_⟩, ?_, sound.best_selection, sound.best_cover, sound.bestCost_eq⟩
  · exact List.nodup_cons.mpr ⟨fresh, sound.chosen_selection.nodup⟩
  · intro q member
    rcases List.mem_cons.mp member with rfl | old
    · exact (lt_of_mem_row covered).1
    · exact sound.chosen_selection.lt_size q old
  · intro q essential
    exact List.mem_cons_of_mem p (sound.chosen_selection.essential q essential)
  · simp only [Search.choose, sound.hits_eq, hits_cons]

theorem Sound.branch (kept : ∀ state : Search, state.Advances (inner state))
    (preserved : ∀ state : Search, state.Sound chart → (inner state).Sound chart) {state : Search}
    (sound : state.Sound chart) {p : Nat} (free : r ∈ uncovered state.hits)
    (listed : p ∈ chart.column r) : (state.branch chart inner p).Sound chart := by
  have after := preserved _ (sound.choose free listed)
  have stretch : state.Advances (state.branch chart inner p) := advances_branch kept state p
  refine ⟨?_, ?_, after.best_selection, after.best_cover, after.bestCost_eq⟩
  · rw [stretch.chosen_eq]
    exact sound.chosen_selection
  · rw [stretch.hits_eq, stretch.chosen_eq]
    exact sound.hits_eq

theorem Sound.foldl_branch (kept : ∀ state : Search, state.Advances (inner state))
    (preserved : ∀ state : Search, state.Sound chart → (inner state).Sound chart)
    (branches : List Nat) (listed : ∀ p ∈ branches, p ∈ chart.column r) {state : Search}
    (sound : state.Sound chart) (free : r ∈ uncovered state.hits) :
    (branches.foldl (Search.branch chart inner) state).Sound chart := by
  induction branches generalizing state with
  | nil => exact sound
  | cons p rest ih =>
    apply ih (fun q member => listed q (List.mem_cons_of_mem p member))
    · exact sound.branch kept preserved free (listed p (by simp))
    · rw [(advances_branch kept state p).hits_eq]
      exact free

theorem Sound.foldl_front (kept : ∀ state : Search, state.Advances (inner state))
    (preserved : ∀ state : Search, state.Sound chart → (inner state).Sound chart) {state : Search}
    (sound : state.Sound chart) (free : r ∈ uncovered state.hits) {p : Nat} {front back : List Nat}
    (split : chart.column r = front ++ p :: back) :
    (front.foldl (Search.branch chart inner) state).Sound chart := by
  apply sound.foldl_branch kept preserved front _ free
  intro q before
  rw [split]
  exact List.mem_append_left _ before

/-- Each of the branches is entered from a sound state with the same choices, and after it the
search only advances. -/
theorem Sound.exists_entry (kept : ∀ state : Search, state.Advances (inner state))
    (preserved : ∀ state : Search, state.Sound chart → (inner state).Sound chart) {state : Search}
    (sound : state.Sound chart) (free : r ∈ uncovered state.hits) {p : Nat}
    (listed : p ∈ chart.column r) :
    ∃ entry, state.Advances entry ∧ entry.Sound chart ∧ (entry.branch chart inner p).Advances
      ((chart.column r).foldl (Search.branch chart inner) state) := by
  obtain ⟨front, back, split⟩ := List.append_of_mem listed
  refine ⟨front.foldl (Search.branch chart inner) state, advances_foldl_branch kept front state,
    sound.foldl_front kept preserved free split, ?_⟩
  rw [split, List.foldl_append, List.foldl_cons]
  exact advances_foldl_branch kept back _

end Search

theorem sound_explore (chart : Chart) (limit budget : Nat) (state : Search)
    (sound : state.Sound chart) : (chart.explore limit budget state).Sound chart := by
  induction budget generalizing state with
  | zero => exact sound
  | succ budget ih =>
    rcases explore_cases chart limit budget state with
      ⟨-, cut⟩ | ⟨-, complete, leaf⟩ | ⟨-, -, -, -, pruned⟩ | ⟨-, r, term, -, branched⟩
    · rw [cut]
      exact ⟨sound.chosen_selection, sound.hits_eq, sound.best_selection, sound.best_cover,
        sound.bestCost_eq⟩
    · rw [leaf]
      exact sound.enter.finish complete
    · rw [pruned]
      exact sound.enter
    · rw [branched]
      exact sound.enter.foldl_branch (advances_explore chart limit budget) ih _ (fun _ => id)
        (mem_of_branchTerm term)

/-! ### Optimality -/

/-- Choosing an implicant in the column of an uncovered term leaves fewer terms uncovered. -/
theorem Search.Sound.length_uncovered_choose_lt {chart : Chart} {state : Search}
    (sound : state.Sound chart) {p r : Nat} (free : r ∈ uncovered state.hits)
    (listed : p ∈ chart.column r) :
    (uncovered (state.choose chart p).hits).length < (uncovered state.hits).length := by
  have covered := (mem_column chart p r).mp listed
  simp only [Search.choose, sound.hits_eq, ← hits_cons] at free ⊢
  have fewer := length_uncovered_add_gain chart state.chosen p
  have gained := (gain_pos_iff chart state.chosen p).mpr ⟨r, free, covered⟩
  omega

/-- A cover with all choices has one more implicant if the choices leave a term uncovered. -/
theorem Search.Sound.length_lt_of_uncovered {chart : Chart} {state : Search}
    (sound : state.Sound chart) {r : Nat} (free : r ∈ uncovered state.hits) {cover : List Nat}
    (covers : chart.IsCover cover) (included : ∀ p ∈ state.chosen, p ∈ cover) :
    state.chosen.length < cover.length := by
  rw [sound.hits_eq, mem_uncovered] at free
  obtain ⟨p, member, covered⟩ := covers r free.1
  have fresh : p ∉ state.chosen := fun chosen => free.2 p chosen covered
  have longer : (p :: state.chosen).length ≤ cover.length := by
    apply List.Nodup.length_le_of_subset
    · exact List.nodup_cons.mpr ⟨fresh, sound.chosen_selection.nodup⟩
    · exact List.cons_subset.mpr ⟨member, included⟩
  exact longer

/-- A node that the limit did not cut leaves a best cover that is no dearer than any cover with the
choices made so far. -/
theorem bestCost_explore_le (chart : Chart) (limit budget : Nat) (state : Search)
    (sound : state.Sound chart) (enough : (uncovered state.hits).length < budget)
    (finished : (chart.explore limit budget state).exhausted = false) (cover : List Nat)
    (covers : chart.IsCover cover) (included : ∀ p ∈ state.chosen, p ∈ cover) :
    (chart.explore limit budget state).bestCost ≤ chart.cost cover := by
  induction budget generalizing state with
  | zero => exact absurd enough (Nat.not_lt_zero _)
  | succ budget ih =>
    rcases explore_cases chart limit budget state with
      ⟨-, cut⟩ | ⟨-, -, leaf⟩ | ⟨-, r, term, full, pruned⟩ | ⟨-, r, term, -, branched⟩
    · rw [cut] at finished
      cases finished
    -- The choices are a cover themselves, and the other cover contains them.
    · rw [leaf]
      exact le_trans (bestCost_finish_le chart state.enter)
        (cost_le_of_subset chart sound.chosen_selection.nodup included)
    -- One more implicant than the choices is already more than the best cover has.
    · rw [pruned, Cost.le_iff]
      have longer := sound.length_lt_of_uncovered (mem_of_branchTerm term) covers included
      exact .inl (Nat.lt_of_lt_of_le full longer)
    -- Some implicant of the cover is in the column of the branch term: follow its branch.
    · have free := mem_of_branchTerm term
      have inside : r < chart.required.size := by
        rw [sound.hits_eq, mem_uncovered] at free
        exact free.1
      obtain ⟨p, member, covered⟩ := covers r inside
      have listed := (mem_column chart p r).mpr covered
      obtain ⟨entry, reached, entry_sound, rest⟩ := sound.enter.exists_entry
        (advances_explore chart limit budget) (sound_explore chart limit budget) free listed
      rw [branched] at finished ⊢
      rw [← (advances_enter state).hits_eq, ← reached.hits_eq] at free
      refine le_trans rest.bestCost_le
        (ih (entry.choose chart p) (entry_sound.choose free listed) ?_ ?_ ?_)
      -- The budget is enough below as well, since the choice covers the branch term.
      · have fewer := entry_sound.length_uncovered_choose_lt free listed
        rw [reached.hits_eq] at fewer
        exact Nat.lt_of_lt_of_le fewer (Nat.le_of_lt_succ enough)
      · have later := mt rest.exhausted (by simp [finished])
        simpa [Search.branch, release] using later
      · intro q chosen
        rcases List.mem_cons.mp chosen with rfl | old
        · exact member
        · exact included q (reached.chosen_eq ▸ old)

/-! ### The whole search -/

theorem sound_start (chart : Chart) (known : List Nat) (selection : chart.IsSelection known)
    (cover : chart.IsCover known) : (Search.start chart known).Sound chart where
  chosen_selection := by
    refine ⟨?_, ?_, ?_⟩
    · exact List.nodup_reverse.mpr ((pairwise_ascending _).imp Nat.ne_of_lt)
    · exact fun p member => lt_of_mem_essentials (List.mem_reverse.mp member)
    · exact fun p essential => List.mem_reverse.mpr essential
  hits_eq := (hits_reverse chart _).symm
  best_selection := selection
  best_cover := cover
  bestCost_eq := rfl

/-- A search that the limit did not cut ends with a cover of least cost. -/
theorem bestCost_exactSearch_le (chart : Chart) (limit : Nat) (known : List Nat)
    (selection : chart.IsSelection known) (known_covers : chart.IsCover known)
    (finished : (chart.exactSearch limit known).exhausted = false) (cover : List Nat)
    (covers : chart.IsCover cover) :
    (chart.exactSearch limit known).bestCost ≤ chart.cost cover := by
  apply bestCost_explore_le chart limit _ _ (sound_start chart known selection known_covers) _
    finished _ covers
  -- The start has chosen the essential implicants, which are in every cover.
  · exact fun p chosen => mem_of_mem_essentials (List.mem_reverse.mp chosen) covers
  · exact Nat.lt_succ_of_le (length_uncovered_le chart chart.essentials)

end TwoLevel.Chart
