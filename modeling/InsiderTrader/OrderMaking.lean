import InsiderTrader.Bookkeeping
import InsiderTrader.ChildClaims
import InsiderTrader.ChildQuantities
import InsiderTrader.Effects
import InsiderTrader.OrderNames
import InsiderTrader.PlanVerdict

/-!
# Which orders the runtime makes

The runtime makes an order when an intent is sent or restored. A broker event,
a request or a step of a plan makes none. The children of stored plans name no
proposal, from the call that stores their plan on.

## Main definitions

- `Runtime.Nameless` — no child of a stored plan names a proposal
- `Runtime.Makes` — new orders have an id of a kind

## Main results

- `Runtime.claimDueChildren_makes` — children that are claimed name no proposal
-/

namespace InsiderTrader

open Fallible

/-- No child of the plan names a proposal. -/
def ChildPlan.Nameless (plan : ChildPlan) : Prop :=
  ∀ child ∈ plan.children, proposalIdFromClientOrderId child.order.clientOrderId = none

/-- A child names no proposal, whatever the plan. -/
theorem ChildPlan.nameless_new {intent : OrderIntent} {schedule : Schedule}
    {created : MonoTime} {plan : ChildPlan} (h : ChildPlan.new intent schedule created = .ok plan) :
    plan.Nameless := by
  unfold ChildPlan.new at h
  cases hplan : planChildren intent schedule with
  | error e =>
    rw [hplan] at h
    cases h
  | ok children =>
    have hids : ∀ child ∈ children, ∃ n, child.clientOrderId = childId intent n := by
      unfold planChildren at hplan
      split at hplan
      · cases hplan
      · split at hplan
        · cases hplan
        · next quantities intervalNs _ =>
          obtain ⟨-, -, hnames, -⟩ := numberChildren_eq_ok hplan
          intro child hchild
          have hmem : child.clientOrderId ∈ children.map (·.clientOrderId) :=
            List.mem_map_of_mem hchild
          rw [hnames] at hmem
          obtain ⟨n, -, hn⟩ := List.mem_map.mp hmem
          exact ⟨n, hn.symm⟩
    rw [hplan] at h
    change (if _ then _ else _) = _ at h
    split at h
    · cases h
    · cases h
      intro child hchild
      obtain ⟨order, horder, rfl⟩ := List.mem_map.mp hchild
      obtain ⟨n, hn⟩ := hids order horder
      dsimp only
      rw [hn]
      exact proposalIdFromClientOrderId_child _ n

theorem ChildPlan.Nameless.of_kept {plan plan' : ChildPlan} (h : plan.Nameless)
    (hkept : Kept plan.children plan'.children) : plan'.Nameless := by
  have hall : ∀ rs rs' : List ChildRecord, Kept rs rs' →
      (∀ c ∈ rs, proposalIdFromClientOrderId c.order.clientOrderId = none) →
      ∀ c ∈ rs', proposalIdFromClientOrderId c.order.clientOrderId = none := by
    intro rs rs' hrs
    induction hrs with
    | nil => exact fun hnone => hnone
    | cons hhead _ ih =>
      intro hnone
      obtain ⟨hfirst, hrest⟩ := List.forall_mem_cons.mp hnone
      exact List.forall_mem_cons.mpr ⟨by rw [hhead.1]; exact hfirst, ih hrest⟩
  exact hall _ _ hkept h

namespace Runtime

/-- No child of a stored plan names a proposal. -/
def Nameless (r : Runtime) : Prop :=
  ∀ (key : String) (record : ChildPlanRecord), r.childPlans[key]? = some record →
    record.plan.Nameless

/-- Only orders with an id in `N` are made. -/
structure Makes (N : String → Prop) (r r' : Runtime) : Prop where
  accountId : r'.accountId = r.accountId
  hasOrder : ∀ id, r'.hasOrder id = true → r.hasOrder id = true ∨ N id
  nameless : r.Nameless → r'.Nameless

variable {N N' : String → Prop} {env : Env}

instance : Std.Refl (Makes N) := ⟨fun _ => ⟨rfl, fun _ h => .inl h, id⟩⟩

instance : IsTrans Runtime (Makes N) where
  trans _ _ _ h h' := ⟨h'.accountId.trans h.accountId,
    fun id hid => (h'.hasOrder id hid).elim (h.hasOrder id) .inr,
    fun hr => h'.nameless (h.nameless hr)⟩

theorem Makes.mono {r r' : Runtime} (h : Makes N r r') (hN : ∀ id, N id → N' id) :
    Makes N' r r' :=
  ⟨h.accountId, fun id hid => (h.hasOrder id hid).imp_right (hN id), h.nameless⟩

theorem makes_of_eq {r r' : Runtime} (haccount : r'.accountId = r.accountId)
    (horders : r'.orders = r.orders) (hplans : r'.childPlans = r.childPlans) : Makes N r r' := by
  refine ⟨haccount, fun id hid => .inl ?_, fun hr => ?_⟩
  · rwa [Runtime.hasOrder, horders] at hid
  · unfold Nameless
    rwa [hplans]

/-- A change of known records makes no order. -/
theorem onOrders_makes {ε α : Type} {wrap : ε → EngineError} {p : Fallible OrderBook ε α}
    (hp : ∀ book id, ((p book).2.get id).isSome → (book.get id).isSome) :
    Along (Makes N) (onOrders wrap p) := fun r =>
  ⟨rfl, fun id hid => .inl (hp r.orders id hid), id⟩

theorem onRecord_known {ε : Type} {unknown : ε} {clientOrderId : String}
    {p : Fallible OrderRecord ε Unit} (book : OrderBook) (id : String)
    (hid : ((OrderBook.onRecord unknown clientOrderId p book).2.get id).isSome) :
    (book.get id).isSome := by
  cases hget : book.get clientOrderId with
  | none => rwa [OrderBook.onRecord_of_none hget] at hid
  | some record =>
    rw [OrderBook.onRecord_of_get hget, OrderBook.get_put] at hid
    split at hid
    · next heq => rw [← heq, hget]; rfl
    · exact hid

theorem paced_makes {α : Type} {p : Fallible Runtime EngineError α} (hp : Along Paced p) :
    Along (Makes N) p := by
  refine hp.mono ?_
  rintro r _ ⟨_, rfl⟩
  exact makes_of_eq rfl rfl rfl

theorem restoreIntent_makes {intent : OrderIntent} :
    Along (Makes (· = intent.clientOrderId)) (restoreIntent intent) := by
  intro r
  refine ⟨rfl, fun id hid => ?_, id⟩
  change ((OrderBook.insert intent r.orders).2.get id).isSome at hid
  unfold OrderBook.insert at hid
  rw [reads_bind, id_eq] at hid
  split at hid
  · exact .inl hid
  · split at hid
    · exact .inl hid
    · change ((r.orders.put intent.clientOrderId ⟨intent, none, 0⟩).get id).isSome at hid
      rw [OrderBook.get_put] at hid
      split at hid
      · next heq => exact .inr heq.symm
      · exact .inl hid

theorem submitIntent_makes {intent : OrderIntent} :
    Along (Makes (· = intent.clientOrderId)) (submitIntent env intent) := by
  intro r
  rcases submitIntent_cases env intent r with hsame | ⟨-, -, book, hrun, hbook⟩
  · rw [hsame]
    exact Std.Refl.refl r
  · rw [hrun]
    refine ⟨rfl, fun id hid => ?_, fun h => h⟩
    change (book.get id).isSome at hid
    rw [hbook] at hid
    split at hid
    · next heq => exact .inr heq.symm
    · exact .inl hid

theorem recordDecision_makes {intent : OrderIntent} {now : MonoTime}
    {market : Option ExecutionMarketReference} :
    Along (Makes N) (recordDecision intent now market) :=
  (Along.reads _).bind fun _ => (Along.require _ _).bind fun _ => (Along.require _ _).bind fun _ =>
    Along.bind (Along.modify fun _ => makes_of_eq rfl rfl rfl) fun _ => Along.ret _

theorem recordSend_makes {id : String} {now : MonoTime}
    {market : Option ExecutionMarketReference} : Along (Makes N) (recordSend id now market) :=
  (Along.reads _).bind fun _ => (Along.orFail _ _).bind fun _ => (Along.require _ _).bind fun _ =>
    Along.bind (Along.modify fun _ => makes_of_eq rfl rfl rfl) fun _ => Along.ret _

theorem recordBrokerTiming_makes {event : BrokerEvent} {now : MonoTime}
    {market : Option ExecutionMarketReference} :
    Along (Makes N) (recordBrokerTiming event now market) := by
  refine (Along.reads _).bind fun r => ?_
  split
  · exact Along.ret _
  · exact (Along.require _ _).bind fun _ =>
      Along.bind (Along.modify fun _ => makes_of_eq rfl rfl rfl) fun _ => Along.ret _

-- Child plans

/-- Storing a plan whose children name no proposal. -/
theorem putPlan_makes (key : String) (record : ChildPlanRecord) (r : Runtime)
    (hrecord : r.Nameless → record.plan.Nameless) :
    Makes N r { r with childPlans := r.childPlans.insert key record } := by
  refine ⟨rfl, fun _ hid => .inl hid, fun hr key' record' hget => ?_⟩
  change (r.childPlans.insert key record)[key']? = some record' at hget
  rw [Std.TreeMap.getElem?_insert] at hget
  split at hget
  · cases hget
    exact hrecord hr
  · exact hr key' record' hget

theorem createChildPlan_makes {parent : OrderIntent} {schedule : Schedule} {now : MonoTime} :
    Along (Makes N) (createChildPlan parent schedule now) := by
  intro r
  unfold createChildPlan
  cases hplan : ChildPlan.new parent schedule now with
  | error e => exact Std.Refl.refl r
  | ok plan => exact putPlan_makes _ _ r fun _ => ChildPlan.nameless_new hplan

theorem onChildPlan_makes {id : String} {p : Fallible ChildPlan PlanError Unit}
    (hp : ∀ plan : ChildPlan, Kept plan.children (p plan).2.children) :
    Along (Makes N) (onChildPlan id p) := by
  intro r
  cases howner : r.planOfChild id with
  | none =>
    rw [onChildPlan, reads_bind, id_eq, howner]
    exact Std.Refl.refl r
  | some entry =>
    obtain ⟨key, record⟩ := entry
    rw [onChildPlan, reads_bind, id_eq, howner]
    dsimp only
    rw [modify_bind, bind_apply, ofExcept_apply]
    have hstored : r.childPlans[key]? = some record := by
      have hmem := List.mem_of_find?_eq_some howner
      exact Std.TreeMap.mem_toList_iff_getElem?_eq_some.mp hmem
    have hput := putPlan_makes (N := N) key { record with plan := (p record.plan).2 } r
      fun hr => (hr key record hstored).of_kept (hp record.plan)
    cases (p record.plan).1 <;> exact hput

/-- A call on one child keeps the others. -/
theorem update_kept (clientOrderId : String) {f : ChildRecord → Option ChildRecord}
    (hf : ∀ r r', f r = some r' →
      r'.order = r.order ∧ r.state ≠ .pending ∧ r'.state ≠ .pending) (plan : ChildPlan) :
    Kept plan.children (ChildPlan.update clientOrderId f plan).2.children := by
  have hkept := (update_leaves clientOrderId hf plan).1
  rw [bind_apply] at hkept
  rcases hupdate : ChildPlan.update clientOrderId f plan with ⟨_ | _, plan'⟩ <;>
    (rw [hupdate] at hkept; exact hkept)

theorem markChildSent_makes {id : String} : Along (Makes N) (markChildSent id) :=
  Along.bind (onChildPlan_makes (update_kept id fun _ _ => markSent_leaves)) fun _ => Along.orFail _ _

theorem markChildUnknown_makes {id : String} : Along (Makes N) (markChildUnknown id) :=
  Along.bind (onChildPlan_makes (update_kept id fun _ _ => markUnknown_leaves)) fun _ => Along.orFail _ _

theorem applyChildEvent_makes {event : BrokerEvent} : Along (Makes N) (applyChildEvent event) :=
  onChildPlan_makes (update_kept _ fun _ _ => applyBrokerEvent_leaves)

/-- A broker event is for a known order. -/
theorem applyBrokerEventInner_makes {event : BrokerEvent} {updatePortfolio : Bool} :
    Along (Makes N) (applyBrokerEventInner event updatePortfolio) := by
  have horders : Along (Makes N)
      (onOrders EngineError.transition (OrderBook.applyBrokerEvent event)) :=
    onOrders_makes onRecord_known
  have hfill (fill : FillRecord) : Along (Makes N)
      (Fallible.modify (·.pushFill fill) : Fallible Runtime EngineError Unit) :=
    Along.modify fun _ => makes_of_eq rfl rfl rfl
  refine (Along.reads _).bind fun r => ?_
  cases event with
  | filled id quantity price =>
    dsimp only
    split
    · exact Along.fail _
    · refine Along.ite (fun _ => horders) fun _ => Along.ite (fun _ => ?_) fun _ => ?_
      · refine (Along.ofExcept _).bind fun _ => horders.bind fun _ =>
          Along.bind (Along.modify fun _ => ?_) fun _ => hfill _
        exact makes_of_eq rfl rfl rfl
      · exact horders.bind fun _ => hfill _
  | _ => exact horders

/-- What is claimed of a nameless plan is nameless. -/
theorem claimPlans_makes {now : MonoTime} {plans : List (String × ChildPlanRecord)}
    (hplans : ∀ entry ∈ plans, entry.2.plan.Nameless) (r : Runtime) :
    Makes N r (claimPlans now plans r).2 ∧
      ∀ claims, (claimPlans now plans r).1 = .ok claims → ∀ claim ∈ claims,
        proposalIdFromClientOrderId claim.intent.clientOrderId = none := by
  induction plans generalizing r with
  | nil =>
    refine ⟨Std.Refl.refl r, fun claims hclaims => ?_⟩
    cases hclaims
    exact fun _ hclaim => absurd hclaim List.not_mem_nil
  | cons entry rest ih =>
    obtain ⟨key, record⟩ := entry
    obtain ⟨hfirst, hrest⟩ := List.forall_mem_cons.mp hplans
    let claimed := { record with plan := (ChildPlan.claimDue now record.plan).2 }
    have hput : Makes N r { r with childPlans := r.childPlans.insert key claimed } :=
      putPlan_makes _ _ r fun _ => hfirst.of_kept ((ChildCall.claimDue now).kept record.plan)
    obtain ⟨hmakes, hnames⟩ := ih hrest { r with childPlans := r.childPlans.insert key claimed }
    rw [claimPlans, modify_bind]
    cases houtcome : (ChildPlan.claimDue now record.plan).1 with
    | error e =>
      refine ⟨hput, fun claims hclaims => ?_⟩
      cases hclaims
    | ok children =>
      have hchildren : ∀ child ∈ children,
          proposalIdFromClientOrderId child.clientOrderId = none := by
        have hdue := ChildCall.perform_claimDue now record.plan
        change (ChildPlan.claimDue now record.plan).1 = _ at hdue
        rw [houtcome] at hdue
        split at hdue
        · cases hdue
          intro child hchild
          obtain ⟨r', hr', rfl⟩ := List.mem_map.mp hchild
          exact hfirst r' (List.mem_filter.mp hr').1
        · cases hdue
      have hok : Except.mapError EngineError.plan
          (.ok children : Except PlanError (List ChildOrder)) = .ok children := rfl
      rw [ofExcept_bind_ok hok]
      rcases hothers : claimPlans now rest
        { r with childPlans := r.childPlans.insert key claimed } with ⟨e | others, r'⟩
      · rw [bind_of_error hothers]
        rw [hothers] at hmakes
        refine ⟨IsTrans.trans _ _ _ hput hmakes, fun claims hclaims => ?_⟩
        cases hclaims
      · rw [bind_of_ok hothers]
        rw [hothers] at hmakes hnames
        refine ⟨IsTrans.trans _ _ _ hput hmakes, fun claims hclaims claim hclaim => ?_⟩
        cases hclaims
        rcases List.mem_append.mp hclaim with hclaim | hclaim
        · obtain ⟨child, hchild, rfl⟩ := List.mem_map.mp hclaim
          exact hchildren child hchild
        · exact hnames others rfl claim hclaim

theorem claimDueChildren_makes (now : MonoTime) {r : Runtime} (hr : r.Nameless) :
    Makes N r (claimDueChildren now r).2 ∧
      ∀ claims, (claimDueChildren now r).1 = .ok claims → ∀ claim ∈ claims,
        proposalIdFromClientOrderId claim.intent.clientOrderId = none := by
  refine claimPlans_makes (fun entry hentry => ?_) r
  exact hr entry.1 entry.2 (Std.TreeMap.mem_toList_iff_getElem?_eq_some.mp hentry)

end Runtime

end InsiderTrader
