import TwoLevel.Proofs.Chart.Limit

/-!
# The calls of the exact search

Each branch of a node calls the search anew, with one more implicant chosen. This implicant covers
the branch term, which was uncovered, so a call has fewer uncovered terms than the one that makes
it: calls are nested no deeper than there are uncovered terms, and a budget beyond their number is
never used up. With such a budget the search is its own branch step, whatever the budget is.

Every call is made in a sound state, since the branches tried before it have restored the choices
and the hits. So what is taken from the hits after a branch has been added to them before it.
-/
namespace TwoLevel.Chart

namespace Search

/-- The search from a state on, with a budget that its calls do not use up. -/
def run (chart : Chart) (limit : Nat) (state : Search) : Search :=
  chart.explore limit ((uncovered state.hits).length + 1) state

/-- A node calls the search for each implicant in the column of its branch term, in the state that
the branches before have left. -/
inductive Calls (chart : Chart) (limit : Nat) (outer : Search) : Search → Prop
  | ofBranch {r p : Nat} {front back : List Nat} (room : outer.nodes < limit)
      (term : chart.branchTerm outer.hits = some r)
      (promising : outer.chosen.length + 1 ≤ outer.bestCost.count)
      (split : chart.column r = front ++ p :: back) :
      Calls chart limit outer
        ((front.foldl (branch chart (run chart limit)) outer.enter).choose chart p)

/-- A call that is made a number of levels below another one. -/
inductive CallsBelow (chart : Chart) (limit : Nat) (entry : Search) : Nat → Search → Prop
  | self : CallsBelow chart limit entry 0 entry
  | nested {depth : Nat} {outer inner : Search} (above : CallsBelow chart limit entry depth outer)
      (call : outer.Calls chart limit inner) : CallsBelow chart limit entry (depth + 1) inner

end Search

open Search

/-- The calls of the exact search of a chart. It is done where there is no orphan, from the greedy
cover. -/
def Reaches (chart : Chart) (limit : Nat) (entry : Search) : Prop :=
  ∃ known depth, chart.orphans = [] ∧ chart.greedyCover = .ok known
    ∧ (Search.start chart known).CallsBelow chart limit depth entry

/-! ### The budget -/

section

variable {chart : Chart} {limit budget bound : Nat} {other : Search → Search} {state : Search}
  (sound : state.Sound chart)

include sound

/-- Trying branches only enters states with fewer uncovered terms. -/
theorem Search.Sound.foldl_branch_congr (bounded : (uncovered state.hits).length ≤ bound)
    (same : ∀ entry : Search, entry.Sound chart → (uncovered entry.hits).length < bound →
      chart.explore limit budget entry = other entry)
    {r : Nat} (free : r ∈ uncovered state.hits) (branches : List Nat)
    (listed : ∀ p ∈ branches, p ∈ chart.column r) :
    branches.foldl (Search.branch chart (chart.explore limit budget)) state
      = branches.foldl (Search.branch chart other) state := by
  have kept := advances_explore chart limit budget
  induction branches generalizing state with
  | nil => rfl
  | cons p rest ih =>
    have here : p ∈ chart.column r := listed p List.mem_cons_self
    have fewer := sound.length_uncovered_choose_lt free here
    have step : state.branch chart (chart.explore limit budget) p = state.branch chart other p := by
      rw [Search.branch, Search.branch,
        same _ (sound.choose free here) (Nat.lt_of_lt_of_le fewer bounded)]
    -- The branch leaves the hits as they were, so the term is free for the next one.
    have stretch : state.Advances (state.branch chart (chart.explore limit budget) p) :=
      advances_branch kept state p
    have hits_eq := stretch.hits_eq
    rw [List.foldl_cons, List.foldl_cons, ← step]
    exact ih (sound.branch kept (sound_explore chart limit budget) free here) (hits_eq ▸ bounded)
      (hits_eq ▸ free) fun q member => listed q (List.mem_cons_of_mem p member)

theorem Search.Sound.visit_congr
    (same : ∀ entry : Search, entry.Sound chart →
      (uncovered entry.hits).length < (uncovered state.hits).length →
      chart.explore limit budget entry = other entry) :
    state.visit chart (chart.explore limit budget) = state.visit chart other := by
  unfold visit
  split
  · rfl
  next r term =>
    split
    · rfl
    · exact sound.foldl_branch_congr (Nat.le_refl _) same (mem_of_branchTerm term) _ fun _ => id

end

/-- A budget beyond the number of uncovered terms does not matter. -/
theorem explore_congr {chart : Chart} {limit less more : Nat} {state : Search}
    (sound : state.Sound chart) (enough : (uncovered state.hits).length < less)
    (enough_more : (uncovered state.hits).length < more) :
    chart.explore limit less state = chart.explore limit more state := by
  induction less generalizing more state with
  | zero => exact absurd enough (Nat.not_lt_zero _)
  | succ less ih =>
    obtain ⟨more, rfl⟩ := Nat.exists_eq_add_of_le' (Nat.zero_lt_of_lt enough_more)
    by_cases reached : limit ≤ state.nodes
    · rw [explore_of_limit_le chart less reached, explore_of_limit_le chart more reached]
    · have room := Nat.lt_of_not_le reached
      rw [explore_of_nodes_lt chart less room, explore_of_nodes_lt chart more room]
      apply sound.enter.visit_congr
      intro entry entry_sound fewer
      rw [(advances_enter state).hits_eq] at fewer
      exact ih entry_sound (by omega) (by omega)

theorem explore_eq_run {chart : Chart} {budget : Nat} (limit : Nat) {state : Search}
    (sound : state.Sound chart) (enough : (uncovered state.hits).length < budget) :
    chart.explore limit budget state = state.run chart limit :=
  explore_congr sound enough (Nat.lt_succ_self _)

/-- What a call does: it is cut by the limit, or it visits its node, and the branches call the
search again. -/
theorem run_eq {chart : Chart} (limit : Nat) {state : Search} (sound : state.Sound chart) :
    state.run chart limit = if limit ≤ state.nodes then { state with exhausted := true }
      else state.enter.visit chart (run chart limit) := by
  rw [run]
  split
  next reached => exact explore_of_limit_le chart _ reached
  next reached =>
    rw [explore_of_nodes_lt chart _ (Nat.lt_of_not_le reached)]
    exact sound.enter.visit_congr fun entry entry_sound fewer =>
      explore_eq_run limit entry_sound fewer

/-! ### The limit -/

theorem nodes_foldl_branch_le {chart : Chart} {limit : Nat} {inner : Search → Search}
    (bounded : ∀ state : Search, state.nodes ≤ limit → (inner state).nodes ≤ limit)
    (branches : List Nat) {state : Search} (below : state.nodes ≤ limit) :
    (branches.foldl (branch chart inner) state).nodes ≤ limit := by
  induction branches generalizing state with
  | nil => exact below
  | cons p rest ih => exact ih (bounded (state.choose chart p) below)

theorem nodes_explore_le (chart : Chart) {limit : Nat} (budget : Nat) (state : Search)
    (below : state.nodes ≤ limit) : (chart.explore limit budget state).nodes ≤ limit := by
  induction budget generalizing state with
  | zero => exact below
  | succ budget ih =>
    rcases explore_cases chart limit budget state with
      ⟨-, cut⟩ | ⟨room, -, leaf⟩ | ⟨room, -, -, -, pruned⟩ | ⟨room, r, -, -, branched⟩
    · rw [cut]
      exact below
    · rw [leaf]
      rcases finish_cases chart state.enter with ⟨-, replaced⟩ | ⟨-, kept⟩
      · rw [replaced]
        exact room
      · rw [kept]
        exact room
    · rw [pruned]
      exact room
    · rw [branched]
      exact nodes_foldl_branch_le ih _ room

/-! ### From one call to the next -/

section

variable {chart : Chart} {limit : Nat} {outer inner : Search}

/-- The branches before have restored the choices and the hits, so a call is made with one more
implicant chosen, which covers an uncovered term. -/
theorem Search.Calls.exists_choice (call : outer.Calls chart limit inner)
    (sound : outer.Sound chart) :
    ∃ (entry : Search) (r p : Nat), outer.Advances entry
      ∧ entry.Sound chart ∧ r ∈ uncovered entry.hits
      ∧ p ∈ chart.column r ∧ inner = entry.choose chart p := by
  cases call with
  | @ofBranch r p front back _ term _ split =>
    have kept (state : Search) : state.Advances (state.run chart limit) :=
      advances_explore chart limit _ state
    have preserved (state : Search) (sound : state.Sound chart) :
        (state.run chart limit).Sound chart :=
      sound_explore chart limit _ state sound
    have stretch :
        outer.enter.Advances (front.foldl (Search.branch chart (run chart limit)) outer.enter) :=
      advances_foldl_branch kept front outer.enter
    have reached := (advances_enter outer).trans stretch
    have free := mem_of_branchTerm term
    refine ⟨_, r, p, reached, sound.enter.foldl_front kept preserved free split, ?_, ?_, rfl⟩
    · rw [reached.hits_eq]
      exact free
    · rw [split]
      exact List.mem_append_right _ List.mem_cons_self

theorem Search.Calls.sound (call : outer.Calls chart limit inner) (sound : outer.Sound chart) :
    inner.Sound chart := by
  obtain ⟨entry, r, p, -, entry_sound, free, listed, rfl⟩ := call.exists_choice sound
  exact entry_sound.choose free listed

theorem Search.Calls.length_uncovered_lt (call : outer.Calls chart limit inner)
    (sound : outer.Sound chart) :
    (uncovered inner.hits).length < (uncovered outer.hits).length := by
  obtain ⟨entry, r, p, reached, entry_sound, free, listed, rfl⟩ := call.exists_choice sound
  rw [← reached.hits_eq]
  exact entry_sound.length_uncovered_choose_lt free listed

theorem Search.Calls.nodes_le (call : outer.Calls chart limit inner) : inner.nodes ≤ limit := by
  cases call with
  | ofBranch room _ _ _ =>
    exact nodes_foldl_branch_le (fun state => nodes_explore_le chart _ state) _ room

theorem Search.CallsBelow.sound {entry : Search} {depth : Nat}
    (below : entry.CallsBelow chart limit depth inner) (sound : entry.Sound chart) :
    inner.Sound chart := by
  induction below with
  | self => exact sound
  | nested _ call ih => exact call.sound ih

/-- Every level below takes at least one from the number of uncovered terms. -/
theorem Search.CallsBelow.add_length_uncovered_le {entry : Search} {depth : Nat}
    (below : entry.CallsBelow chart limit depth inner) (sound : entry.Sound chart) :
    depth + (uncovered inner.hits).length ≤ (uncovered entry.hits).length := by
  induction below with
  | self => exact Nat.le_of_eq (Nat.zero_add _)
  | nested above call ih =>
    have fewer := call.length_uncovered_lt (above.sound sound)
    omega

theorem Search.CallsBelow.nodes_le {entry : Search} {depth : Nat}
    (below : entry.CallsBelow chart limit depth inner) (early : entry.nodes ≤ limit) :
    inner.nodes ≤ limit := by
  cases below with
  | self => exact early
  | nested _ call => exact call.nodes_le

end

theorem sound_start_greedy {chart : Chart} {known : List Nat} (full : chart.orphans = [])
    (returned : chart.greedyCover = .ok known) : (Search.start chart known).Sound chart := by
  obtain ⟨greedy, same, solution⟩ := exists_greedyCover chart ((orphans_eq_nil_iff chart).mp full)
  rw [returned, Except.ok.injEq] at same
  subst same
  exact sound_start chart known solution.selection solution.cover

/-! ### Every call -/

/-- What holds of a call from its entry to its return. -/
structure Keeps (chart : Chart) (limit : Nat) (entry : Search) : Prop where
  /-- On entry the hits count the choices that cover a term, and no choice is repeated. -/
  hits_eq : ∀ r < chart.required.size,
    entry.hits[r]? = some (entry.chosen.countP fun p => (chart.row p).contains r)
  chosen_nodup : entry.chosen.Nodup
  chosen_restored : (entry.run chart limit).chosen = entry.chosen
  hits_restored : (entry.run chart limit).hits = entry.hits
  /-- Taking one from the hits of a choice never goes below zero. -/
  hits_pos : ∀ p ∈ entry.chosen, ∀ r ∈ chart.row p,
    ∃ others, (entry.run chart limit).hits[r]? = some (others + 1)
  best_cover : chart.IsCover (entry.run chart limit).best
  bestCost_eq : (entry.run chart limit).bestCost = chart.cost (entry.run chart limit).best
  bestCost_le : (entry.run chart limit).bestCost ≤ entry.bestCost
  nodes_le : (entry.run chart limit).nodes ≤ limit
  /-- Calls are nested below it no deeper than it has uncovered terms. -/
  depth_le : ∀ depth inner, entry.CallsBelow chart limit depth inner →
    depth ≤ (uncovered entry.hits).length

theorem Search.Sound.keeps {chart : Chart} {limit : Nat} {entry : Search}
    (sound : entry.Sound chart) (below : entry.nodes ≤ limit) : chart.Keeps limit entry := by
  have stretch : entry.Advances (entry.run chart limit) := advances_explore chart limit _ entry
  have after : (entry.run chart limit).Sound chart := sound_explore chart limit _ entry sound
  have counted (r : Nat) (inside : r < chart.required.size) :
      entry.hits[r]? = some (entry.chosen.countP fun p => (chart.row p).contains r) := by
    rw [sound.hits_eq, getElem?_hits, if_pos inside]
  refine ⟨counted, sound.chosen_selection.nodup, stretch.chosen_eq, stretch.hits_eq, ?_,
    after.best_cover, after.bestCost_eq, stretch.bestCost_le,
    nodes_explore_le chart _ entry below, ?_⟩
  · intro p chosen r covered
    rw [stretch.hits_eq, counted r (lt_of_mem_row covered).2]
    have counts : 0 < entry.chosen.countP fun p => (chart.row p).contains r :=
      List.countP_pos_iff.mpr ⟨p, chosen, List.contains_iff_mem.mpr covered⟩
    obtain ⟨others, same⟩ := Nat.exists_eq_add_of_le' counts
    exact ⟨others, congrArg some same⟩
  · intro depth inner nested
    have bound := nested.add_length_uncovered_le sound
    omega

/-- The exact search is the call from its start. Every call that it makes is cut by the limit, or
visits its node and calls the search again for the branches, and from entry to return it keeps to
the choices, the hits, the best cover, the limit and the depth. -/
theorem exactSearch_calls (chart : Chart) (limit : Nat) :
    (∀ known, chart.orphans = [] → chart.greedyCover = .ok known →
      chart.exactSearch limit known = (Search.start chart known).run chart limit)
    ∧ ∀ entry : Search, chart.Reaches limit entry →
      (entry.run chart limit = if limit ≤ entry.nodes then { entry with exhausted := true }
        else entry.enter.visit chart (run chart limit))
      ∧ chart.Keeps limit entry := by
  constructor
  · intro known full returned
    exact explore_eq_run limit (sound_start_greedy full returned)
      (Nat.lt_succ_of_le (length_uncovered_le chart chart.essentials))
  · rintro entry ⟨known, depth, full, returned, below⟩
    have sound := below.sound (sound_start_greedy full returned)
    exact ⟨run_eq limit sound, sound.keeps (below.nodes_le (Nat.zero_le limit))⟩

/-- Each term is covered by two implicants at least. -/
theorem essentials_misleading : misleading.essentials = [] := by
  have shared : misleading.columns.toList.filterMap onlyMember = [] := by
    rw [misleading, ofTerms_of_pairwise _ (by decide)]
    decide +kernel
  rw [essentials, shared]
  exact ascending_of_pairwise .nil

theorem greedyCover_misleading : misleading.greedyCover = .ok [0, 1, 3] := by
  have picked : misleading.picks misleading.required.size (misleading.hits []) = .ok [0, 1, 3] := by
    rw [misleading, ofTerms_of_pairwise _ (by decide)]
    decide +kernel
  rw [greedyCover, essentials_misleading, picked]
  exact congrArg Except.ok (ascending_of_pairwise (by decide))

/-- The call for the first branch on a chart whose greedy cover is not least. -/
def misleadingBranch : Search := (Search.start misleading [0, 1, 3]).enter.choose misleading 1

theorem exactSearch_calls_misleading :
    misleading.orphans = [] ∧ misleading.greedyCover = .ok [0, 1, 3]
    ∧ misleading.exactSearch 5 [0, 1, 3] = (Search.start misleading [0, 1, 3]).run misleading 5
    ∧ misleading.Reaches 5 misleadingBranch
    ∧ (misleadingBranch.run misleading 5
        = if 5 ≤ misleadingBranch.nodes then { misleadingBranch with exhausted := true }
          else misleadingBranch.enter.visit misleading (run misleading 5))
    ∧ misleading.Keeps 5 misleadingBranch := by
  have term : misleading.branchTerm (Search.start misleading [0, 1, 3]).hits = some 4 := by
    rw [Search.start, essentials_misleading, misleading, ofTerms_of_pairwise _ (by decide)]
    decide +kernel
  have promising : (Search.start misleading [0, 1, 3]).chosen.length + 1
      ≤ (Search.start misleading [0, 1, 3]).bestCost.count := by
    rw [Search.start, essentials_misleading]
    decide
  have split : misleading.column 4 = [] ++ 1 :: [2] := by
    rw [misleading, ofTerms_of_pairwise _ (by decide)]
    decide +kernel
  have reached : misleading.Reaches 5 misleadingBranch :=
    ⟨_, 1, orphans_misleading, greedyCover_misleading,
      .nested .self (.ofBranch (by decide) term promising split)⟩
  exact ⟨orphans_misleading, greedyCover_misleading,
    (exactSearch_calls misleading 5).1 _ orphans_misleading greedyCover_misleading, reached,
    (exactSearch_calls misleading 5).2 _ reached⟩

end TwoLevel.Chart
