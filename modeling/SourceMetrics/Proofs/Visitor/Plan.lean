/-
# Accepted visitors and their routes

A plan is made by going through the visitors once, with two things to do for
each: to check the metrics it writes, and to enter it into the routes.  Here
the two are taken apart.  A plan is accepted just when there is a visitor and
every metric written is defined, not computed and written by one visitor
only; it is then what entering all visitors leads to (`build_eq_ok_iff`).
None of the conditions speaks of the order of the visitors.  A plan that is
refused is refused for one of the claims that the visitors make, and for a
fault that this claim has (`build_eq_error`).

What a route is made of is said visitor by visitor: the visitors called for a
kind of node are those that list it, and likewise for tokens, each under its
position (`positionsWhere`).  The order in which the kinds of one visitor are
entered leaves no trace in the routes (`positionsOf_tabulate`).
-/
import Mathlib.Data.List.Forall2
import SourceMetrics.Visitor.Plan

namespace SourceMetrics
namespace DispatchPlan

variable {σ α : Type}

/-! ## Acceptance -/

/-- A visitor may write the metric: it is defined and not computed. -/
def Writable (registry : MetricRegistry α) (m : Metric) : Prop :=
  ∃ d, registry.get? m = some d ∧ d.isComputed = false

/-- The plan with visitors entered one by one, the first at the given
position. -/
def routes (p : DispatchPlan) (position : Nat) : List (Visitor σ α) → DispatchPlan
  | [] => p
  | v :: rest => (p.enter position v).routes (position + 1) rest

/-- The metrics that visitors write, one visitor after the other. -/
def written (visitors : List (Visitor σ α)) : List Metric := visitors.flatMap (·.metrics)

/-- Metrics are accepted when all may be written, none is named twice and
none has an owner yet. -/
structure Accepts (registry : MetricRegistry α) (owned ms : List Metric) : Prop where
  writable : ∀ m ∈ ms, Writable registry m
  nodup : ms.Nodup
  unowned : ∀ m ∈ ms, m ∉ owned

section
variable {registry : MetricRegistry α} {owned : List Metric}

theorem accepts_nil : Accepts registry owned [] :=
  ⟨fun _ hm => absurd hm List.not_mem_nil, List.nodup_nil, fun _ hm => absurd hm List.not_mem_nil⟩

theorem accepts_cons_iff {m : Metric} {ms : List Metric} :
    Accepts registry owned (m :: ms) ↔
      Writable registry m ∧ m ∉ owned ∧ Accepts registry (m :: owned) ms := by
  constructor
  · rintro ⟨hwritable, hnodup, hunowned⟩
    obtain ⟨hm, hms⟩ := List.nodup_cons.mp hnodup
    refine ⟨hwritable m List.mem_cons_self, hunowned m List.mem_cons_self,
      ⟨fun k hk => hwritable k (List.mem_cons_of_mem _ hk), hms, fun k hk hmem => ?_⟩⟩
    rcases List.mem_cons.mp hmem with rfl | hmem
    · exact hm hk
    · exact hunowned k (List.mem_cons_of_mem _ hk) hmem
  · rintro ⟨hwritable, hm, hms⟩
    refine ⟨fun k hk => ?_, List.nodup_cons.mpr ⟨?_, hms.nodup⟩, fun k hk => ?_⟩
    · rcases List.mem_cons.mp hk with rfl | hk
      · exact hwritable
      · exact hms.writable k hk
    · exact fun hmem => hms.unowned m hmem List.mem_cons_self
    · rcases List.mem_cons.mp hk with rfl | hk
      · exact hm
      · exact fun hmem => hms.unowned k hk (List.mem_cons_of_mem _ hmem)

theorem accepts_append_iff {ms ns : List Metric} :
    Accepts registry owned (ms ++ ns) ↔
      Accepts registry owned ms ∧ Accepts registry (ms.reverse ++ owned) ns := by
  induction ms generalizing owned with
  | nil => exact (and_iff_right accepts_nil).symm
  | cons m ms ih =>
      rw [List.cons_append, accepts_cons_iff, accepts_cons_iff, ih, List.reverse_cons,
        List.append_assoc, List.singleton_append]
      simp only [and_assoc]

end

theorem lookup_eq_none_iff {m : Metric} {owners : List (Metric × String)} :
    owners.lookup m = none ↔ m ∉ owners.map Prod.fst := by
  induction owners with
  | nil => simp only [List.lookup_nil, List.map_nil, List.not_mem_nil, not_false_eq_true]
  | cons owner rest ih =>
      obtain ⟨k, name⟩ := owner
      rw [List.lookup_cons, List.map_cons, List.mem_cons, not_or]
      by_cases h : m = k
      · rw [beq_iff_eq.mpr h]
        constructor
        · intro hnone
          cases hnone
        · intro hne
          exact absurd h hne.1
      · rw [beq_eq_false_iff_ne.mpr h]
        exact ih.trans (and_iff_right h).symm

/-- One metric is accepted when it may be written and has no owner yet. -/
theorem claimMetrics_cons (registry : MetricRegistry α) (visitor : String)
    (owners : List (Metric × String)) (m : Metric) (rest : List Metric)
    (owners' : List (Metric × String)) :
    claimMetrics registry visitor owners (m :: rest) = .ok owners' ↔
      Writable registry m ∧ m ∉ owners.map Prod.fst ∧
        claimMetrics registry visitor ((m, visitor) :: owners) rest = .ok owners' := by
  rw [claimMetrics, ← lookup_eq_none_iff, Writable]
  cases registry.get? m with
  | none => simp only [reduceCtorEq, false_and, exists_false]
  | some d =>
      cases hcomputed : d.isComputed with
      | true =>
          simp only [if_true, reduceCtorEq, Option.some.injEq, exists_eq_left', hcomputed,
            Bool.true_eq_false, false_and]
      | false =>
          cases owners.lookup m with
          | none =>
              simp only [Bool.false_eq_true, if_false, Option.some.injEq, exists_eq_left',
                hcomputed, true_and]
          | some first =>
              simp only [hcomputed, Bool.false_eq_true, if_false, reduceCtorEq, false_and,
                and_false]

theorem claimMetrics_eq_ok_iff (registry : MetricRegistry α) (visitor : String) (ms : List Metric)
    (owners owners' : List (Metric × String)) :
    claimMetrics registry visitor owners ms = .ok owners' ↔
      Accepts registry (owners.map Prod.fst) ms ∧
        owners' = ms.reverse.map (·, visitor) ++ owners := by
  induction ms generalizing owners with
  | nil =>
      rw [claimMetrics]
      constructor
      · intro h
        cases h
        exact ⟨accepts_nil, rfl⟩
      · rintro ⟨-, rfl⟩
        rfl
  | cons m rest ih =>
      rw [claimMetrics_cons, ih, accepts_cons_iff]
      simp only [List.reverse_cons, List.map_append, List.map_cons, List.map_nil, List.append_assoc,
        List.singleton_append, and_assoc]

theorem keys_claimed (visitor : String) (ms : List Metric) (owners : List (Metric × String)) :
    (ms.reverse.map (·, visitor) ++ owners).map Prod.fst = ms.reverse ++ owners.map Prod.fst := by
  rw [List.map_append, List.map_map]
  congr 1
  exact List.map_id _

/-- Visitors are accepted with their metrics taken together. -/
theorem enterAll_eq_ok_iff (registry : MetricRegistry α) (visitors : List (Visitor σ α))
    (owners : List (Metric × String)) (p plan : DispatchPlan) (position : Nat) :
    enterAll registry owners p position visitors = .ok plan ↔
      Accepts registry (owners.map Prod.fst) (written visitors) ∧
        plan = p.routes position visitors := by
  induction visitors generalizing owners p position with
  | nil =>
      rw [enterAll]
      constructor
      · intro h
        cases h
        exact ⟨accepts_nil, rfl⟩
      · rintro ⟨-, rfl⟩
        rfl
  | cons v rest ih =>
      have hwritten : written (v :: rest) = v.metrics ++ written rest := List.flatMap_cons
      rw [enterAll, hwritten, accepts_append_iff, routes]
      cases hclaim : claimMetrics registry v.name owners v.metrics with
      | error err =>
          have hrefused : ¬ Accepts registry (owners.map Prod.fst) v.metrics := by
            intro haccepts
            rw [(claimMetrics_eq_ok_iff registry v.name v.metrics owners _).mpr
              ⟨haccepts, rfl⟩] at hclaim
            cases hclaim
          simp only [reduceCtorEq, hrefused, false_and]
      | ok owners' =>
          obtain ⟨haccepts, rfl⟩ :=
            (claimMetrics_eq_ok_iff registry v.name v.metrics owners owners').mp hclaim
          simp only [haccepts, true_and]
          rw [ih, keys_claimed]

/-- A plan is made when there is a visitor and all metrics written are
accepted, and it has the routes of all visitors. -/
theorem build_eq_ok_iff (registry : MetricRegistry α) (visitors : List (Visitor σ α))
    (plan : DispatchPlan) :
    build registry visitors = .ok plan ↔
      visitors ≠ [] ∧ Accepts registry [] (written visitors) ∧ plan = empty.routes 0 visitors := by
  cases visitors with
  | nil => simp only [build, reduceCtorEq, ne_eq, not_true_eq_false, false_and]
  | cons v rest =>
      rw [build, enterAll_eq_ok_iff]
      exact (and_iff_right (List.cons_ne_nil v rest)).symm

/-! ## Refusal -/

/-- What visitors claim to write: each metric with the name of the visitor. -/
def claims (visitors : List (Visitor σ α)) : List (Metric × String) :=
  visitors.flatMap fun v => v.metrics.map (·, v.name)

/-- Why a claim is refused, when others were made before it. -/
def Refuses (registry : MetricRegistry α) (before : List (Metric × String))
    (claim : Metric × String) : ConfigurationFault → Prop
  | .writesUndefined visitor m => claim = (m, visitor) ∧ registry.get? m = none
  | .writesComputed visitor m =>
    claim = (m, visitor) ∧ ∃ d, registry.get? m = some d ∧ d.isComputed = true
  | .metricWrittenTwice m first second => claim = (m, second) ∧ (m, first) ∈ before
  | _ => False

theorem Refuses.mono {registry : MetricRegistry α} {before before' : List (Metric × String)}
    {claim : Metric × String} {fault : ConfigurationFault}
    (h : Refuses registry before claim fault) (hsub : before ⊆ before') :
    Refuses registry before' claim fault := by
  cases fault with
  | metricWrittenTwice m first second => exact ⟨h.1, hsub h.2⟩
  | _ => exact h

theorem claimMetrics_eq_error {registry : MetricRegistry α} {visitor : String} {ms : List Metric}
    {owners : List (Metric × String)} {err : ScanError}
    (h : claimMetrics registry visitor owners ms = .error err) :
    ∃ front m back fault, ms = front ++ m :: back ∧ err = .configuration fault ∧
      Refuses registry (front.map (·, visitor) ++ owners) (m, visitor) fault := by
  induction ms generalizing owners with
  | nil => cases h
  | cons m rest ih =>
      rw [claimMetrics] at h
      split at h
      next hget =>
        cases h
        exact ⟨[], m, rest, _, rfl, rfl, rfl, hget⟩
      next d hget =>
        split at h
        next hcomputed =>
          cases h
          exact ⟨[], m, rest, _, rfl, rfl, rfl, d, hget, hcomputed⟩
        next hplain =>
          split at h
          next first hlookup =>
            cases h
            obtain ⟨others, more, rfl, -⟩ := List.lookup_eq_some_iff.mp hlookup
            refine ⟨[], m, rest, _, rfl, rfl, rfl, ?_⟩
            exact List.mem_append_right others List.mem_cons_self
          next hlookup =>
            obtain ⟨front, k, back, fault, rfl, herr, hrefuses⟩ := ih h
            refine ⟨m :: front, k, back, fault, rfl, herr, hrefuses.mono ?_⟩
            -- The claim of `m` counts as one of the owners there and as one of the front here.
            rw [List.map_cons, List.cons_append]
            exact List.perm_middle.subset

/-- Visitors are refused for one of their claims, the first that is at fault. -/
theorem enterAll_eq_error {registry : MetricRegistry α} {visitors : List (Visitor σ α)}
    {owners : List (Metric × String)} {p : DispatchPlan} {position : Nat} {err : ScanError}
    (h : enterAll registry owners p position visitors = .error err) :
    ∃ front claim back fault, claims visitors = front ++ claim :: back ∧
      err = .configuration fault ∧ Refuses registry (front ++ owners) claim fault := by
  induction visitors generalizing owners p position with
  | nil => cases h
  | cons v rest ih =>
      have hclaims : claims (v :: rest) = v.metrics.map (·, v.name) ++ claims rest :=
        List.flatMap_cons
      rw [enterAll] at h
      cases hclaim : claimMetrics registry v.name owners v.metrics with
      | error found =>
          rw [hclaim] at h
          cases h
          obtain ⟨front, m, back, fault, hms, herr, hrefuses⟩ := claimMetrics_eq_error hclaim
          refine ⟨front.map (·, v.name), (m, v.name), back.map (·, v.name) ++ claims rest, fault,
            ?_, herr, hrefuses⟩
          rw [hclaims, hms, List.map_append, List.map_cons, List.append_assoc, List.cons_append]
      | ok owners' =>
          rw [hclaim] at h
          obtain ⟨-, rfl⟩ :=
            (claimMetrics_eq_ok_iff registry v.name v.metrics owners owners').mp hclaim
          obtain ⟨front, claim, back, fault, hrest, herr, hrefuses⟩ := ih h
          refine ⟨v.metrics.map (·, v.name) ++ front, claim, back, fault, ?_, herr,
            hrefuses.mono ?_⟩
          · rw [hclaims, hrest, List.append_assoc]
          · intro c hc
            simp only [List.mem_append, List.mem_map, List.mem_reverse] at hc ⊢
            rcases hc with hfront | hclaimed | howned
            · exact .inl (.inr hfront)
            · exact .inl (.inl hclaimed)
            · exact .inr howned

/-- There is no plan without visitors, nor for claims one of which is refused. -/
theorem build_eq_error {registry : MetricRegistry α} {visitors : List (Visitor σ α)}
    {err : ScanError} (h : build registry visitors = .error err) :
    ∃ fault, err = .configuration fault ∧
      (visitors = [] ∧ fault = .noVisitors ∨
        ∃ front claim back, claims visitors = front ++ claim :: back ∧
          Refuses registry front claim fault) := by
  cases visitors with
  | nil =>
      cases h
      exact ⟨.noVisitors, rfl, .inl ⟨rfl, rfl⟩⟩
  | cons v rest =>
      rw [build] at h
      obtain ⟨front, claim, back, fault, hclaims, herr, hrefuses⟩ := enterAll_eq_error h
      rw [List.append_nil] at hrefuses
      exact ⟨fault, herr, .inr ⟨front, claim, back, hclaims, hrefuses⟩⟩

/-! ## Routes -/

/-- The positions of the visitors of which something is true, the first
visitor at the given position. -/
def positionsWhere (f : Visitor σ α → Bool) (position : Nat) : List (Visitor σ α) → List Nat
  | [] => []
  | v :: rest => (if f v then [position] else []) ++ positionsWhere f (position + 1) rest

theorem positionsOf_subscribe (position : Nat) (kind k : String)
    (table : List (String × List Nat)) :
    positionsOf k (subscribe position kind table) =
      positionsOf k table ++ if kind = k then [position] else [] := by
  induction table with
  | nil => rfl
  | cons entry rest ih =>
      obtain ⟨k', positions⟩ := entry
      rw [subscribe]
      by_cases hkind : k' = kind
      · subst hkind
        rw [if_pos rfl, positionsOf, positionsOf]
        split
        · rfl
        · rw [List.append_nil]
      · rw [if_neg hkind, positionsOf, positionsOf, ih]
        by_cases hk : k' = k
        · rw [if_pos hk, if_pos hk, if_neg fun e => hkind (hk.trans e.symm), List.append_nil]
        · rw [if_neg hk, if_neg hk]

theorem positionsOf_subscribeAll (position : Nat) (k : String) {kinds : List String}
    (hnodup : kinds.Nodup) (table : List (String × List Nat)) :
    positionsOf k (kinds.foldl (fun table kind => subscribe position kind table) table) =
      positionsOf k table ++ if kinds.contains k then [position] else [] := by
  induction kinds generalizing table with
  | nil => exact (List.append_nil _).symm
  | cons kind rest ih =>
      obtain ⟨hfresh, hnodup⟩ := List.nodup_cons.mp hnodup
      rw [List.foldl_cons, ih hnodup, positionsOf_subscribe, List.append_assoc]
      congr 1
      by_cases h : kind = k
      · subst h
        have hrest : rest.contains kind = false := by
          rw [← Bool.not_eq_true, List.contains_iff_mem]
          exact hfresh
        rw [if_pos rfl, hrest, List.contains_cons, beq_self_eq_true, Bool.true_or, if_pos rfl]
        rfl
      · have hne : (k == kind) = false := beq_eq_false_iff_ne.mpr fun e => h e.symm
        rw [if_neg h, List.contains_cons, hne, Bool.false_or, List.nil_append]

theorem nodup_eraseDups (kinds : List String) : kinds.eraseDups.Nodup := by
  -- What follows the first kind is shorter, but no part of the list.
  induction hn : kinds.length using Nat.strongRecOn generalizing kinds with
  | ind n ih =>
      cases kinds with
      | nil => exact List.nodup_nil
      | cons kind rest =>
          rw [List.eraseDups_cons]
          refine List.nodup_cons.mpr ⟨?_, ih _ ?_ _ rfl⟩
          · rw [List.mem_eraseDups, List.mem_filter]
            rintro ⟨-, hne⟩
            simp only [beq_self_eq_true, Bool.not_true, Bool.false_eq_true] at hne
          · have := List.length_filter_le (fun b => !b == kind) rest
            rw [← hn, List.length_cons]
            omega

/-- The table with visitors entered one by one, the first at the given
position, when it is known in which order the kinds of each are entered. -/
def tabulate (position : Nat) (table : List (String × List Nat)) :
    List (List String) → List (String × List Nat)
  | [] => table
  | kinds :: rest =>
    tabulate (position + 1) (kinds.foldl (fun table kind => subscribe position kind table) table)
      rest

/-- Every kind a visitor lists, once, in any order. -/
structure ListsOnce (v : Visitor σ α) (kinds : List String) : Prop where
  nodup : kinds.Nodup
  mem_iff : ∀ kind, kind ∈ kinds ↔ kind ∈ v.nodeTypes

theorem listsOnce_eraseDups (v : Visitor σ α) : ListsOnce v v.nodeTypes.eraseDups :=
  ⟨nodup_eraseDups v.nodeTypes, fun _ => List.mem_eraseDups⟩

/-- In whatever order the kinds of each visitor are entered, the table has for a
kind the visitors that list it. -/
theorem positionsOf_tabulate {visitors : List (Visitor σ α)} {sets : List (List String)}
    (h : List.Forall₂ ListsOnce visitors sets) (kind : String) (position : Nat)
    (table : List (String × List Nat)) :
    positionsOf kind (tabulate position table sets) =
      positionsOf kind table ++ positionsWhere (·.nodeTypes.contains kind) position visitors := by
  induction h generalizing position table with
  | nil => exact (List.append_nil _).symm
  | @cons v kinds _ _ honce _ ih =>
      have hcontains : kinds.contains kind = v.nodeTypes.contains kind := by
        rw [Bool.eq_iff_iff, List.contains_iff_mem, List.contains_iff_mem, honce.mem_iff]
      rw [tabulate, ih, positionsOf_subscribeAll position kind honce.nodup, hcontains,
        positionsWhere, List.append_assoc]

theorem byType_routes (p : DispatchPlan) (position : Nat) (visitors : List (Visitor σ α)) :
    (p.routes position visitors).byType =
      tabulate position p.byType (visitors.map (·.nodeTypes.eraseDups)) := by
  induction visitors generalizing p position with
  | nil => rfl
  | cons v rest ih => exact ih (p.enter position v) (position + 1)

/-- The visitors called for a kind of node are those that list it. -/
theorem subscribers_routes (p : DispatchPlan) (position : Nat) (visitors : List (Visitor σ α))
    (kind : String) :
    (p.routes position visitors).subscribers kind =
      p.subscribers kind ++ positionsWhere (·.nodeTypes.contains kind) position visitors := by
  have honce : List.Forall₂ ListsOnce visitors (visitors.map (·.nodeTypes.eraseDups)) :=
    List.forall₂_map_right_iff.mpr (List.forall₂_same.mpr fun v _ => listsOnce_eraseDups v)
  rw [subscribers, byType_routes]
  exact positionsOf_tabulate honce kind position p.byType

/-- The visitors called for tokens are those that observe them. -/
theorem tokenObservers_routes (p : DispatchPlan) (position : Nat) (visitors : List (Visitor σ α)) :
    (p.routes position visitors).tokenObservers =
      p.tokenObservers ++ positionsWhere (·.observesTokens) position visitors := by
  induction visitors generalizing p position with
  | nil => exact (List.append_nil _).symm
  | cons v rest ih =>
      rw [routes, ih, positionsWhere, enter, ← List.append_assoc]
      congr 1
      cases v.observesTokens with
      | true => rfl
      | false => exact (List.append_nil _).symm

/-- A visitor owns the metrics it declares. -/
theorem owned_routes (p : DispatchPlan) (position : Nat) (visitors : List (Visitor σ α)) :
    (p.routes position visitors).owned = p.owned ++ visitors.map (·.metrics) := by
  induction visitors generalizing p position with
  | nil => exact (List.append_nil _).symm
  | cons v rest ih =>
      rw [routes, ih, enter, List.append_assoc, List.singleton_append, List.map_cons]

theorem ownedBy_routes {visitors : List (Visitor σ α)} {v : Visitor σ α} {i : Nat}
    (hv : visitors[i]? = some v) : (empty.routes 0 visitors).ownedBy i = v.metrics := by
  rw [ownedBy, owned_routes, empty, List.nil_append, List.getElem?_map, hv]
  rfl

theorem le_of_mem_positionsWhere {f : Visitor σ α → Bool} {position q : Nat}
    {visitors : List (Visitor σ α)} (h : q ∈ positionsWhere f position visitors) :
    position ≤ q := by
  induction visitors generalizing position with
  | nil => cases h
  | cons v rest ih =>
      rcases List.mem_append.mp h with h | h
      · split at h
        · exact Nat.le_of_eq (List.mem_singleton.mp h).symm
        · cases h
      · exact Nat.le_of_succ_le (ih h)

theorem mem_positionsWhere {f : Visitor σ α → Bool} {position q : Nat}
    {visitors : List (Visitor σ α)} :
    q ∈ positionsWhere f position visitors ↔
      ∃ i v, q = position + i ∧ visitors[i]? = some v ∧ f v = true := by
  induction visitors generalizing position with
  | nil => simp only [positionsWhere, List.not_mem_nil, List.getElem?_nil, reduceCtorEq, false_and,
      and_false, exists_false]
  | cons w rest ih =>
      rw [positionsWhere, List.mem_append, ih]
      constructor
      · rintro (hq | ⟨i, v, rfl, hv, hf⟩)
        · split at hq
          next hf => exact ⟨0, w, List.mem_singleton.mp hq, rfl, hf⟩
          next => cases hq
        · exact ⟨i + 1, v, by omega, hv, hf⟩
      · rintro ⟨i, v, rfl, hv, hf⟩
        cases i with
        | zero =>
            obtain rfl := Option.some.inj hv
            rw [if_pos hf]
            exact .inl (List.mem_singleton.mpr rfl)
        | succ i => exact .inr ⟨i, v, by omega, hv, hf⟩

/-- Among the positions of several visitors, that of one visitor stands for
the visitor alone. -/
theorem filterMap_positionsWhere {f : Visitor σ α → Bool} {v : Visitor σ α} (position i : Nat)
    {visitors : List (Visitor σ α)} (hv : visitors[i]? = some v) :
    (positionsWhere f position visitors).filterMap
        (fun q => if q = position + i then some 0 else none) =
      positionsWhere f 0 [v] := by
  induction visitors generalizing position i with
  | nil => cases hv
  | cons w rest ih =>
      rw [positionsWhere, List.filterMap_append]
      cases i with
      | zero =>
          obtain rfl := Option.some.inj hv
          rw [positionsWhere, positionsWhere]
          congr 1
          · split
            · rw [List.filterMap_cons, if_pos (Nat.add_zero position).symm, List.filterMap_nil]
            · rfl
          · refine List.filterMap_eq_nil_iff.mpr fun q hq => if_neg fun e => ?_
            have := le_of_mem_positionsWhere hq
            omega
      | succ i =>
          have hrest := ih (position + 1) i hv
          rw [Nat.add_assoc, Nat.add_comm 1 i] at hrest
          rw [hrest]
          split
          · have hne : position ≠ position + (i + 1) := by omega
            rw [List.filterMap_cons, if_neg hne]
            rfl
          · rfl

end DispatchPlan
end SourceMetrics
