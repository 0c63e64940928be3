import DiveCANHead.Lib.Paths
import Mathlib.Data.List.Basic
import Mathlib.Logic.Function.Basic

/-!
# The worst-case stack of a call graph (`wcs.py`)

`calc_wcs` goes through the calls of a function depth first and keeps what it has found in the nodes
themselves. A function whose calls all end gets the most its call paths need; a callee that is
marked as unbounded adds nothing, so the mark stays with the functions that call through pointers.
-/

namespace DiveCANHead.Stack

open DiveCANHead.Lib

universe u

/-- `node["wcs"]`. -/
inductive Wcs where
  | bytes (n : ℕ)
  | unbounded
  deriving DecidableEq, Repr

/-- The graph after `validate` and `resolve_all_calls`; `functions` is the order in which `calc_all`
visits it, and the nodes of the manual overrides have neither calls nor pointer calls. -/
structure CallGraph (V : Type u) where
  functions : List V
  rCalls : V → List V
  hasPtrCall : V → Bool
  localStack : V → ℕ
  isManual : V → Bool
  visited : ∀ v, v ∈ functions
  manual : ∀ v, isManual v = true → rCalls v = [] ∧ hasPtrCall v = false

/-- What the nodes hold under `"wcs"`. -/
abbrev Found (V : Type u) := V → Option Wcs

variable {V : Type u} [DecidableEq V]

namespace CallGraph

/-- How many functions are not among the parents. -/
def fresh (g : CallGraph V) (parents : List V) : ℕ :=
  (g.functions.filter (· ∉ parents)).length

theorem fresh_lt (g : CallGraph V) {parents : List V} {node : V} (h : node ∉ parents) :
    g.fresh (parents ++ [node]) < g.fresh parents := by
  have hsub : g.functions.filter (· ∉ parents ++ [node]) =
      (g.functions.filter (· ∉ parents)).filter (· ≠ node) := by
    rw [List.filter_filter]
    refine List.filter_congr fun x _ => ?_
    simp only [List.mem_append, List.mem_singleton, not_or, ne_eq, Bool.decide_and, Bool.and_comm]
  unfold fresh
  rw [hsub]
  refine List.length_filter_lt_length_iff_exists.mpr ⟨node, ?_, by simp⟩
  exact List.mem_filter.mpr ⟨g.visited node, decide_eq_true h⟩

/-- What a callee adds to `call_max`. -/
def callMax (m : ℕ) : Option Wcs → ℕ
  | some (.bytes n) => max m n
  | _ => m

mutual

/-- `calc_wcs`. -/
def calcWcs (g : CallGraph V) (node : V) (parents : List V) (w : Found V) : Found V :=
  if (w node).isSome = true then w
  else if g.hasPtrCall node = true then Function.update w node (some .unbounded)
  else if _h : node ∈ parents then Function.update w node (some .unbounded)
  else
    let called := g.calcCalls (g.rCalls node) (parents ++ [node]) w 0
    Function.update called.1 node (some (.bytes (called.2 + g.localStack node)))
termination_by (g.fresh parents, 0)
decreasing_by exact Prod.Lex.left _ _ (g.fresh_lt _h)

/-- The loop of `calc_wcs` over the calls, with `call_max`. -/
def calcCalls (g : CallGraph V) (calls : List V) (parents : List V) (w : Found V) (m : ℕ) :
    Found V × ℕ :=
  match calls with
  | [] => (w, m)
  | call :: calls =>
    let w := g.calcWcs call parents w
    g.calcCalls calls parents w (callMax m (w call))
termination_by (g.fresh parents, calls.length)
decreasing_by
  · exact Prod.Lex.right _ (Nat.succ_pos _)
  · exact Prod.Lex.right _ (Nat.lt_succ_self _)

end

/-- The nodes before `calc_all`; a manual override is its local stack. -/
def preset (g : CallGraph V) : Found V :=
  fun v => if g.isManual v = true then some (.bytes (g.localStack v)) else none

/-- `calc_all`. -/
def calcAll (g : CallGraph V) : Found V :=
  g.functions.foldl (fun w v => g.calcWcs v [] w) g.preset

/-! ## What is found -/

/-- A cycle or a function with a pointer call can be reached. -/
def Unbounded (g : CallGraph V) (v : V) : Prop := Diverges g.rCalls (g.hasPtrCall · = true) v

omit [DecidableEq V] in
theorem Unbounded.pointer {g : CallGraph V} {v : V} (h : g.hasPtrCall v = true) : g.Unbounded v :=
  ⟨v, .refl, .inl h⟩

/-- The sums of the local stacks along the call paths that start at a function. -/
def pathStacks (g : CallGraph V) (v : V) : Set ℕ := {n | PathSum g.rCalls g.localStack v n}

/-- A mark stands at a pointer call or at a parent, and a number at a function whose calls all end
is what it needs. -/
structure Settled (g : CallGraph V) (parents : List V) (w : Found V) : Prop where
  pointer : ∀ v r, w v = some r → g.hasPtrCall v = true → r = .unbounded
  marked : ∀ v, w v = some .unbounded → g.hasPtrCall v = true ∨ v ∈ parents
  right : ∀ v n, w v = some (.bytes n) → ¬ g.Unbounded v → IsGreatest (g.pathStacks v) n

/-- Every parent calls its way down to the node. -/
def Below (g : CallGraph V) (parents : List V) (node : V) : Prop :=
  ∀ p ∈ parents, Relation.TransGen (fun a b => b ∈ g.rCalls a) p node

variable {g : CallGraph V} {parents calls : List V} {node : V} {w w' : Found V} {m : ℕ}

omit [DecidableEq V] in
theorem Below.next {call : V} (h : g.Below parents node) (hcall : call ∈ g.rCalls node) :
    g.Below (parents ++ [node]) call := by
  intro p hp
  rcases List.mem_append.mp hp with hp | hp
  · exact (h p hp).tail hcall
  · exact List.mem_singleton.mp hp ▸ .single hcall

omit [DecidableEq V] in
/-- A node whose calls all end is not among its own parents. -/
theorem Below.not_mem (h : g.Below parents node) (hends : ¬ g.Unbounded node) : node ∉ parents :=
  fun hmem => hends (Diverges.cycle (h node hmem))

omit [DecidableEq V] in
theorem Settled.bytes (h : g.Settled parents w) (hbelow : g.Below parents node)
    (hends : ¬ g.Unbounded node) (hsome : (w node).isSome = true) :
    ∃ n, w node = some (.bytes n) ∧ IsGreatest (g.pathStacks node) n := by
  obtain ⟨r, hr⟩ := Option.isSome_iff_exists.mp hsome
  cases r with
  | bytes n => exact ⟨n, hr, h.right node n hr hends⟩
  | unbounded =>
    rcases h.marked node hr with hptr | hmem
    · exact absurd (Unbounded.pointer hptr) hends
    · exact absurd hmem (hbelow.not_mem hends)

theorem Settled.mark (h : g.Settled parents w)
    (hmark : g.hasPtrCall node = true ∨ node ∈ parents) :
    g.Settled parents (Function.update w node (some .unbounded)) := by
  refine ⟨fun v r hr hptr => ?_, fun v hv => ?_, fun v n hn => ?_⟩
  · by_cases hnode : v = node
    · rw [hnode, Function.update_self] at hr
      exact (Option.some.inj hr).symm
    · rw [Function.update_of_ne hnode] at hr
      exact h.pointer v r hr hptr
  · by_cases hnode : v = node
    · exact hnode ▸ hmark
    · rw [Function.update_of_ne hnode] at hv
      exact h.marked v hv
  · by_cases hnode : v = node
    · rw [hnode, Function.update_self] at hn
      cases hn
    · rw [Function.update_of_ne hnode] at hn
      exact h.right v n hn

/-- The number of a node replaces the mark that a cycle has left at it. -/
theorem Settled.write (h : g.Settled (parents ++ [node]) w) (hptr : ¬ g.hasPtrCall node = true)
    (hmax : ¬ g.Unbounded node → GreatestOf g.rCalls g.localStack (g.rCalls node) 0 m) :
    g.Settled parents (Function.update w node (some (.bytes (m + g.localStack node)))) := by
  refine ⟨fun v r hr hv => ?_, fun v hv => ?_, fun v n hn hends => ?_⟩
  · by_cases hnode : v = node
    · exact absurd (hnode ▸ hv) hptr
    · rw [Function.update_of_ne hnode] at hr
      exact h.pointer v r hr hv
  · by_cases hnode : v = node
    · rw [hnode, Function.update_self] at hv
      cases hv
    · rw [Function.update_of_ne hnode] at hv
      refine (h.marked v hv).imp_right fun hmem => (List.mem_append.mp hmem).resolve_right ?_
      exact fun hsingle => hnode (List.mem_singleton.mp hsingle)
  · by_cases hnode : v = node
    · subst hnode
      rw [Function.update_self] at hn
      obtain rfl := Wcs.bytes.inj (Option.some.inj hn)
      rw [Nat.add_comm]
      exact (hmax hends).isGreatest
    · rw [Function.update_of_ne hnode] at hn
      exact h.right v n hn hends

/-- What a visit does: nothing that was there changes, and the node gets its result. -/
structure Visited (g : CallGraph V) (parents : List V) (node : V) (w w' : Found V) : Prop where
  keeps : ∀ v r, w v = some r → w' v = some r
  found : (w' node).isSome = true
  settled : g.Settled parents w'

/-- What the loop over the calls does. -/
structure Called (g : CallGraph V) (parents calls : List V) (w : Found V) (m : ℕ)
    (r : Found V × ℕ) : Prop where
  keeps : ∀ v x, w v = some x → r.1 v = some x
  settled : g.Settled parents r.1
  greatest : (∀ c ∈ calls, ¬ g.Unbounded c) → GreatestOf g.rCalls g.localStack calls m r.2

omit [DecidableEq V] in
theorem ne_of_found {v : V} {r : Wcs} (hnone : w node = none) (hv : w v = some r) : v ≠ node := by
  rintro rfl
  rw [hnone] at hv
  cases hv

theorem called_calcCalls
    (hvisit : ∀ {c w}, g.Below parents c → g.Settled parents w →
      g.Visited parents c w (g.calcWcs c parents w)) :
    ∀ {calls w m}, (∀ c ∈ calls, g.Below parents c) → g.Settled parents w →
      g.Called parents calls w m (g.calcCalls calls parents w m)
  | [], w, m, _, hw => by
    rw [calcCalls]
    exact ⟨fun _ _ h => h, hw, fun _ => .nil m⟩
  | c :: cs, w, m, hbelow, hw => by
    have hc := hbelow c List.mem_cons_self
    have hfirst := hvisit hc hw
    rw [calcCalls]
    have hrest := called_calcCalls hvisit (m := callMax m (g.calcWcs c parents w c))
      (fun d hd => hbelow d (List.mem_cons_of_mem c hd)) hfirst.settled
    refine ⟨fun v x hx => hrest.keeps v x (hfirst.keeps v x hx), hrest.settled, fun hends => ?_⟩
    obtain ⟨n, hn, htop⟩ := hfirst.settled.bytes hc (hends c List.mem_cons_self) hfirst.found
    refine .cons htop ?_
    have hgreatest := hrest.greatest fun d hd => hends d (List.mem_cons_of_mem c hd)
    rw [hn] at hgreatest ⊢
    exact hgreatest

theorem visited_calcWcs (hbelow : g.Below parents node) (hw : g.Settled parents w) :
    g.Visited parents node w (g.calcWcs node parents w) := by
  induction hfresh : g.fresh parents using Nat.strong_induction_on
    generalizing parents node w with
  | _ k ih =>
    subst hfresh
    have hmark : ∀ {r}, w node = none → ∀ v x, w v = some x →
        Function.update w node r v = some x := fun hnone v x hx => by
      rw [Function.update_of_ne (ne_of_found hnone hx)]
      exact hx
    rw [calcWcs]
    split
    · next hsome => exact ⟨fun _ _ h => h, hsome, hw⟩
    next hnone =>
    have hnone : w node = none := Option.not_isSome_iff_eq_none.mp hnone
    split
    · next hptr =>
      exact ⟨hmark hnone, by rw [Function.update_self]; rfl, hw.mark (.inl hptr)⟩
    next hptr =>
    split
    · next hmem =>
      exact ⟨hmark hnone, by rw [Function.update_self]; rfl, hw.mark (.inr hmem)⟩
    next hmem =>
    have hdeeper : g.Settled (parents ++ [node]) w :=
      ⟨hw.pointer, fun v hv => (hw.marked v hv).imp_right (List.mem_append_left _), hw.right⟩
    have hcalled : g.Called (parents ++ [node]) (g.rCalls node) w 0
        (g.calcCalls (g.rCalls node) (parents ++ [node]) w 0) := called_calcCalls
      (fun hc hs => ih _ (g.fresh_lt hmem) hc hs rfl) (fun c hc => hbelow.next hc) hdeeper
    refine ⟨fun v x hx => ?_, by rw [Function.update_self]; rfl, hcalled.settled.write hptr ?_⟩
    · rw [Function.update_of_ne (ne_of_found hnone hx)]
      exact hcalled.keeps v x hx
    · exact fun hends => hcalled.greatest fun c hc hdiv => hends (hdiv.of_next hc)

/-! ## All functions -/

omit [DecidableEq V] in
/-- A manual override is what a function without calls needs. -/
theorem settled_preset (g : CallGraph V) : g.Settled [] g.preset := by
  refine ⟨fun v r hr hptr => ?_, fun v hv => ?_, fun v n hn _ => ?_⟩
  · obtain ⟨hmanual, _⟩ := Option.ite_none_right_eq_some.mp hr
    exact absurd ((g.manual v hmanual).2.symm.trans hptr) nofun
  · obtain ⟨_, hv⟩ := Option.ite_none_right_eq_some.mp hv
    cases Option.some.inj hv
  · obtain ⟨hmanual, hn⟩ := Option.ite_none_right_eq_some.mp hn
    obtain rfl := Wcs.bytes.inj (Option.some.inj hn)
    refine GreatestOf.isGreatest (m := 0) ?_
    rw [(g.manual v hmanual).1]
    exact .nil 0

theorem settled_foldl (functions : List V) (w : Found V) (hw : g.Settled [] w) :
    g.Settled [] (functions.foldl (fun w v => g.calcWcs v [] w) w) ∧
      ∀ v, (w v).isSome = true ∨ v ∈ functions →
        ((functions.foldl (fun w v => g.calcWcs v [] w) w) v).isSome = true := by
  induction functions generalizing w with
  | nil => exact ⟨hw, fun v hv => hv.resolve_right List.not_mem_nil⟩
  | cons f functions ih =>
    have hvisit : g.Visited [] f w (g.calcWcs f [] w) := visited_calcWcs nofun hw
    obtain ⟨hsettled, hfound⟩ := ih _ hvisit.settled
    refine ⟨hsettled, fun v hv => hfound v ?_⟩
    rcases hv with hv | hv
    · obtain ⟨r, hr⟩ := Option.isSome_iff_exists.mp hv
      exact .inl (by rw [hvisit.keeps v r hr]; rfl)
    · rcases List.mem_cons.mp hv with rfl | hv
      · exact .inl hvisit.found
      · exact .inr hv

theorem settled_calcAll (g : CallGraph V) : g.Settled [] g.calcAll ∧
    ∀ v, (g.calcAll v).isSome = true := by
  obtain ⟨hsettled, hfound⟩ := settled_foldl g.functions g.preset (settled_preset g)
  exact ⟨hsettled, fun v => hfound v (.inr (g.visited v))⟩

/-- A function is reported as unbounded where it has a pointer call itself. -/
theorem calcAll_unbounded_iff (g : CallGraph V) (v : V) :
    g.calcAll v = some .unbounded ↔ g.hasPtrCall v = true := by
  obtain ⟨hsettled, hfound⟩ := settled_calcAll g
  refine ⟨fun h => (hsettled.marked v h).resolve_right List.not_mem_nil, fun hptr => ?_⟩
  obtain ⟨r, hr⟩ := Option.isSome_iff_exists.mp (hfound v)
  rw [hr, hsettled.pointer v r hr hptr]

/-- The report is right: unbounded where a cycle or a pointer call can be reached, and elsewhere the
most that a call path needs. -/
def Sound (g : CallGraph V) : Prop :=
  ∀ v, (g.Unbounded v → g.calcAll v = some .unbounded) ∧
    (¬ g.Unbounded v → ∃ n, g.calcAll v = some (.bytes n) ∧ IsGreatest (g.pathStacks v) n)

omit [DecidableEq V] in
/-- Where neither a call of a pointer caller nor a cycle is hidden in a function without pointer
calls, such a function reaches nothing that is unbounded. -/
theorem not_unbounded_of_direct
    (hdirect : ∀ v, g.hasPtrCall v = false → (∀ c ∈ g.rCalls v, g.hasPtrCall c = false) ∧
      ¬ Relation.TransGen (fun a b => b ∈ g.rCalls a) v v)
    (hnode : g.hasPtrCall node = false) : ¬ g.Unbounded node := by
  rintro ⟨u, hreach, hu⟩
  have hplain : g.hasPtrCall u = false := by
    clear hu
    induction hreach with
    | refl => exact hnode
    | tail _ hcall ih => exact (hdirect _ ih).1 _ hcall
  rcases hu with hptr | hcycle
  · exact absurd (hplain.symm.trans hptr) nofun
  · exact (hdirect u hplain).2 hcycle

/-- The report is right exactly for the graphs in which a function without pointer calls neither
calls one that has them nor lies on a cycle. -/
theorem calcAll_sound_iff (g : CallGraph V) :
    g.Sound ↔ ∀ v, g.hasPtrCall v = false → (∀ c ∈ g.rCalls v, g.hasPtrCall c = false) ∧
      ¬ Relation.TransGen (fun a b => b ∈ g.rCalls a) v v := by
  obtain ⟨hsettled, hfound⟩ := settled_calcAll g
  refine ⟨fun hsound v hplain => ?_, fun hdirect v => ⟨fun hdiv => ?_, fun hends => ?_⟩⟩
  · have hends : ¬ g.Unbounded v := fun hdiv => by
      have hptr := (calcAll_unbounded_iff g v).mp ((hsound v).1 hdiv)
      exact absurd (hplain.symm.trans hptr) nofun
    refine ⟨fun c hc => ?_, fun hcycle => hends (Diverges.cycle hcycle)⟩
    exact Bool.eq_false_of_not_eq_true fun hptr =>
      hends (Diverges.of_next hc (Unbounded.pointer hptr))
  · refine (calcAll_unbounded_iff g v).mpr (Bool.eq_true_of_not_eq_false fun hplain => ?_)
    exact not_unbounded_of_direct hdirect hplain hdiv
  · exact hsettled.bytes nofun hends (hfound v)

/-- A function that calls one with a pointer call, and one that calls itself. -/
theorem calcAll_not_sound :
    ¬ Sound (V := Bool) ⟨[false, true], fun v => if v then [] else [true], id, fun _ => 8,
        fun _ => false, by decide, nofun⟩ ∧
      ¬ Sound (V := Unit) ⟨[()], fun _ => [()], fun _ => false, fun _ => 8, fun _ => false,
        fun _ => List.mem_cons_self, nofun⟩ := by
  refine ⟨fun h => ?_, fun h => ?_⟩
  · have hcalls : Unbounded (V := Bool) ⟨[false, true], fun v => if v then [] else [true], id,
        fun _ => 8, fun _ => false, by decide, nofun⟩ false :=
      Diverges.of_next (c := true) List.mem_cons_self (Unbounded.pointer rfl)
    exact absurd ((calcAll_unbounded_iff _ false).mp ((h false).1 hcalls)) nofun
  · have hcycle : Unbounded (V := Unit) ⟨[()], fun _ => [()], fun _ => false, fun _ => 8,
        fun _ => false, fun _ => List.mem_cons_self, nofun⟩ () :=
      Diverges.cycle (.single List.mem_cons_self)
    exact absurd ((calcAll_unbounded_iff _ ()).mp ((h ()).1 hcycle)) nofun

end CallGraph

end DiveCANHead.Stack
