import InsiderTrader.FillAttribution
import InsiderTrader.Library.Runs

/-!
# Strategy attribution

A blotter follows a host and remembers, for each order, the strategy whose proposal
it was made from, and every fill that moved such an order. Attribution is
complete when the execution summaries count these fills. The host reads the
strategy back from the id of the order, so a fill is missed when the id names no
recorded proposal: children name none.

## Main definitions

- `Blotter`, `Blotter.step` — a host with the strategies of its orders and their fills
- `Blotter.Complete` — the summaries are the sums of the fills
- `Blotter.Attributes` — the condition on a call

## Main results

- `Blotter.Sound.step` — what the ids of orders say, kept by every such call
- `attribution_complete` — a run of such calls keeps the summaries complete
-/

namespace InsiderTrader

open MachineInt Fallible

namespace Runtime

/-- The number of the proposal that an order has the name of. -/
def proposalOfName (r : Runtime) (clientOrderId : String) : Option ProposalId :=
  (proposalIdFromClientOrderId clientOrderId).filter fun proposalId =>
    clientOrderId = r.clientOrderIdForProposal proposalId

/-- It undoes the naming of orders. -/
theorem proposalOfName_eq_some_iff (r : Runtime) {clientOrderId : String} {proposalId : ProposalId}
    (hpos : 0 < proposalId) (hlt : proposalId < 2 ^ 128) :
    r.proposalOfName clientOrderId = some proposalId ↔
      clientOrderId = r.clientOrderIdForProposal proposalId := by
  unfold proposalOfName
  rw [Option.filter_eq_some_iff]
  constructor
  · rintro ⟨-, hname⟩
    exact of_decide_eq_true hname
  · rintro rfl
    exact ⟨proposalIdFromClientOrderId_whole r hpos hlt, decide_eq_true rfl⟩

theorem NamedAfter.proposalOfName_eq {r : Runtime} {clientOrderId : String}
    (h : r.NamedAfter clientOrderId) :
    r.proposalOfName clientOrderId = proposalIdFromClientOrderId clientOrderId := by
  unfold proposalOfName
  cases hnamed : proposalIdFromClientOrderId clientOrderId with
  | none => rfl
  | some proposalId => simpa using h proposalId hnamed

end Runtime

namespace Op

/-- The strategy of the proposal that a call submits under a number. A call that is given no
proposal submits the recorded one. -/
def strategyNamed (h : Host) (op : Op) (proposalId : ProposalId) : Option String :=
  match op with
  | .submitProposal proposal _ _ | .submitApprovedAction _ proposal _ _ =>
    if proposal.proposalId = proposalId then some proposal.strategyId
    else h.strategyOf proposalId
  | _ => h.strategyOf proposalId

/-- The strategy of the proposal that a call plans children for. -/
def strategyPlanned : Op → Option String
  | .submitScheduledProposal proposal _ _ _ => some proposal.strategyId
  | _ => none

end Op

/-- A host, the strategies whose proposals its orders and plans were made from, and the fills of
these orders, negative for sales, newest first. -/
structure Blotter where
  host : Host
  madeFrom : String → Option String
  plannedFrom : String → Option String
  fills : List (String × Int)

namespace Blotter

/-- A blotter that opens with a host. -/
def opened (h : Host) : Blotter := ⟨h, fun _ => none, fun _ => none, []⟩

/-- The strategies of the plans after a call. -/
def plannedAfter (d : Blotter) (op : Op) (h' : Host) (key : String) : Option String :=
  if h'.runtime.childPlans.contains key ∧ ¬d.host.runtime.childPlans.contains key then
    op.strategyPlanned
  else d.plannedFrom key

/-- The strategies of the orders after a call. A new order is named after its proposal, or is a
child of a plan. -/
def madeAfter (d : Blotter) (op : Op) (h' : Host) (id : String) : Option String :=
  if h'.runtime.hasOrder id ∧ ¬d.host.runtime.hasOrder id then
    match h'.runtime.proposalOfName id with
    | some proposalId => op.strategyNamed d.host proposalId
    | none => (h'.runtime.planOfChild id).bind fun entry => d.plannedAfter op h' entry.1
  else d.madeFrom id

/-- The fills after a call: a broker event that moved the filled quantity of an order that was
made for a strategy is one of its fills. -/
def fillsAfter (d : Blotter) (op : Op) (h' : Host) : List (String × Int) :=
  match op with
  | .applyBrokerEvent (.filled id quantity _) =>
    match d.madeFrom id with
    | none => d.fills
    | some strategyId =>
      if d.host.runtime.filledQuantity id < h'.runtime.filledQuantity id then
        (strategyId, if d.host.runtime.orderSide id = some .buy then quantity else -quantity) ::
          d.fills
      else d.fills
  | _ => d.fills

/-- One call. -/
def step (call : Env × Op) (d : Blotter) : Blotter :=
  let h' := call.2.after call.1 d.host
  ⟨h', d.madeAfter call.2 h', d.plannedAfter call.2 h', d.fillsAfter call.2 h'⟩

/-- The fills of a strategy. -/
def fillsOf (d : Blotter) (strategyId : String) : List Int :=
  (d.fills.filter (·.1 = strategyId)).map (·.2)

/-- **Attribution is complete**: the summary of a strategy is the sum and the number of the fills
of its orders. -/
def Complete (d : Blotter) : Prop :=
  ∀ strategyId, (d.host.summaryOf strategyId).filledQuantityTicks = (d.fillsOf strategyId).sum ∧
    (d.host.summaryOf strategyId).fillCount = (d.fillsOf strategyId).length

/-- The condition on a call.

- A proposal is admitted under a free number only if the order of this number, if there is one,
  was made from a proposal of the same strategy.
- A proposal that is submitted directly has not been recorded under another strategy.
- A fill that is delivered and taken by an order made for a strategy names a recorded proposal,
  comes in a state that admits it, leaves positions that the graph takes, and finds room in the
  summary. -/
def Attributes (d : Blotter) (env : Env) : Op → Prop
  | .submitStrategyProposal proposal _ =>
    d.host.strategyOf proposal.proposalId = none →
      let id := d.host.runtime.clientOrderIdForProposal proposal.proposalId
      d.host.runtime.hasOrder id = true → d.madeFrom id = some proposal.strategyId
  | .submitProposal proposal _ _ | .submitApprovedAction _ proposal _ _ =>
    ∀ strategyId ∈ d.host.strategyOf proposal.proposalId, strategyId = proposal.strategyId
  | .applyBrokerEvent (.filled id quantity price) =>
    Host.Delivers env d.host (.filled id quantity price) →
    d.host.runtime.TakesEvent (.filled id quantity price) →
    ∀ strategyId ∈ d.madeFrom id,
      (∃ proposalId ∈ proposalIdFromClientOrderId id, (d.host.strategyOf proposalId).isSome) ∧
      ¬d.host.runtime.SplitsFill (.filled id quantity price) ∧
      Host.Graphs env d.host (.filled id quantity price) ∧
      (d.host.summaryOf strategyId).HasRoom
        (if d.host.runtime.orderSide id = some .buy then quantity else -quantity)
  | _ => True

/-- **Invariant**: no child names a proposal, every order that names a proposal is named after it,
an order that names a recorded proposal was made from one of the same strategy, and attribution is
complete. -/
structure Sound (d : Blotter) : Prop where
  nameless : d.host.runtime.Nameless
  named : ∀ id, d.host.runtime.hasOrder id = true → d.host.runtime.NamedAfter id
  made : ∀ id, d.host.runtime.hasOrder id = true →
    ∀ proposalId ∈ proposalIdFromClientOrderId id,
      ∀ strategyId ∈ d.host.strategyOf proposalId, d.madeFrom id = some strategyId
  complete : d.Complete

theorem opened_sound (settings : Settings) : (opened (Host.start settings)).Sound where
  nameless key record hplan := by cases hplan
  named id horder := by cases horder
  made id horder := by cases horder
  complete strategyId := ⟨rfl, rfl⟩

variable {d : Blotter} {env : Env} {op : Op} {h' : Host} {id : String}

theorem madeAfter_of_known (hknown : d.host.runtime.hasOrder id = true) :
    d.madeAfter op h' id = d.madeFrom id :=
  if_neg fun hnew => hnew.2 hknown

/-- What a call submits under the number of a recorded proposal is of the recorded strategy. -/
theorem Attributes.strategyNamed (hgood : d.Attributes env op) {proposalId : ProposalId}
    {strategyId : String} (hstrategy : d.host.strategyOf proposalId = some strategyId) :
    op.strategyNamed d.host proposalId = some strategyId := by
  have hown {proposal : Proposal}
      (h : ∀ strategyId ∈ d.host.strategyOf proposal.proposalId,
        strategyId = proposal.strategyId) :
      (if proposal.proposalId = proposalId then some proposal.strategyId
        else d.host.strategyOf proposalId) = some strategyId := by
    split
    · next hnumber =>
      subst hnumber
      rw [h strategyId hstrategy]
    · exact hstrategy
  cases op with
  | submitProposal => exact hown hgood
  | submitApprovedAction => exact hown hgood
  | _ => exact hstrategy

/-- A new order that names a proposal is remembered with its strategy. -/
theorem madeAfter_of_new (hnew : d.host.runtime.hasOrder id = false)
    (horder : h'.runtime.hasOrder id = true) (hnamed : h'.runtime.NamedAfter id)
    {proposalId : ProposalId} (hid : proposalIdFromClientOrderId id = some proposalId) :
    d.madeAfter op h' id = op.strategyNamed d.host proposalId := by
  rw [madeAfter, if_pos ⟨horder, by simp [hnew]⟩, hnamed.proposalOfName_eq, hid]

/-- **Orders keep their names** along a call that makes orders named after what they name. -/
theorem Sound.named_after (hd : d.Sound)
    (hmakes : Runtime.Makes d.host.runtime.NamedAfter d.host.runtime h'.runtime)
    (horder : h'.runtime.hasOrder id = true) : h'.runtime.NamedAfter id := by
  refine Runtime.NamedAfter.congr hmakes.accountId ?_
  exact (hmakes.hasOrder id horder).elim (hd.named id) fun hnamed => hnamed

/-- **A call that is neither an admission nor a broker event.** -/
theorem Sound.step_orderly (hd : d.Sound) (hgood : d.Attributes env op)
    (hmakes : Host.MakesNamed d.host (op.after env d.host))
    (hfills : d.fillsAfter op (op.after env d.host) = d.fills) : (step (env, op) d).Sound where
  nameless := hmakes.runtime.nameless hd.nameless
  named id horder := hd.named_after hmakes.runtime horder
  made id horder proposalId hid strategyId hstrategy := by
    have hrecorded : d.host.strategyOf proposalId = some strategyId := by
      rw [Host.strategyOf, ← hmakes.proposals]
      exact hstrategy
    change (op.after env d.host).runtime.hasOrder id = true at horder
    change d.madeAfter op (op.after env d.host) id = some strategyId
    cases hknown : d.host.runtime.hasOrder id with
    | true =>
      rw [madeAfter_of_known hknown]
      exact hd.made id hknown proposalId hid strategyId hrecorded
    | false =>
      rw [madeAfter_of_new hknown horder (hd.named_after hmakes.runtime horder) hid]
      exact hgood.strategyNamed hrecorded
  complete strategyId := by
    have hcomplete := hd.complete strategyId
    rw [Host.summaryOf, ← hmakes.summaries] at hcomplete
    change (Host.summaryOf _ _).filledQuantityTicks = (((d.fillsAfter op _).filter _).map _).sum ∧
      (Host.summaryOf _ _).fillCount = (((d.fillsAfter op _).filter _).map _).length
    rw [hfills]
    exact hcomplete

/-- A blotter where nothing is sold or bought for a strategy stays complete. -/
theorem Complete.of_eq {d' : Blotter} (h : d.Complete)
    (hsummaries : d'.host.strategyExecutionSummaries = d.host.strategyExecutionSummaries)
    (hfills : d'.fills = d.fills) : d'.Complete := by
  intro strategyId
  rw [Host.summaryOf, hsummaries, fillsOf, hfills]
  exact h strategyId

/-- **An admission** gives no known order another strategy. -/
theorem Sound.step_admission (hd : d.Sound) {proposal : Proposal} {now : MonoTime}
    (hgood : d.Attributes env (.submitStrategyProposal proposal now)) :
    (step (env, .submitStrategyProposal proposal now) d).Sound := by
  obtain ⟨hruntime, hsummaries, hstrategies⟩ :=
    Host.submitStrategyProposal_admits env proposal now d.host
  have hknown {id : String} (horder : (step (env, .submitStrategyProposal proposal now)
      d).host.runtime.hasOrder id = true) : d.host.runtime.hasOrder id = true :=
    (hruntime.hasOrder id horder).resolve_right not_false
  refine ⟨hruntime.nameless hd.nameless, fun id horder => ?_, fun id horder proposalId hid
    strategyId hstrategy => ?_, hd.complete.of_eq hsummaries rfl⟩
  · exact Runtime.NamedAfter.congr hruntime.accountId (hd.named id (hknown horder))
  · refine (madeAfter_of_known (hknown horder)).trans ?_
    rcases hstrategies proposalId with hsame | ⟨rfl, hfree, hadmitted⟩
    · exact hd.made id (hknown horder) proposalId hid strategyId (hsame ▸ hstrategy)
    · have hname := hd.named id (hknown horder) _ hid
      have hmade := hgood hfree (hname ▸ hknown horder)
      have hown : proposal.strategyId = strategyId := Option.some.inj (hadmitted.symm.trans hstrategy)
      rw [hname, hmade, hown]

/-- A new fill of a strategy whose summary counts it. -/
theorem Complete.of_fill {d' : Blotter} (h : d.Complete) {strategyId : String} {signed : Int}
    {summary : StrategyExecutionSummary}
    (hsummaries : d'.host.strategyExecutionSummaries =
      d.host.strategyExecutionSummaries.insert strategyId summary)
    (hfilled : summary.filledQuantityTicks =
      (d.host.summaryOf strategyId).filledQuantityTicks + signed)
    (hcount : summary.fillCount = (d.host.summaryOf strategyId).fillCount + 1)
    (hfills : d'.fills = (strategyId, signed) :: d.fills) : d'.Complete := by
  intro other
  obtain ⟨hsum, hlength⟩ := h other
  rw [Host.summaryOf, hsummaries, Std.TreeMap.getElem?_insert, fillsOf, hfills]
  by_cases hother : strategyId = other
  · subst hother
    rw [if_pos (Std.ReflCmp.cmp_eq_of_eq rfl)]
    simp only [Option.getD_some, List.filter_cons, decide_true, if_true, List.map_cons,
      List.sum_cons, List.length_cons]
    rw [hfilled, hcount, hsum, hlength]
    exact ⟨Int.add_comm _ _, rfl⟩
  · rw [if_neg fun heq => hother (Std.LawfulEqCmp.eq_of_compare heq)]
    simp only [List.filter_cons, hother, decide_false]
    exact ⟨hsum, hlength⟩

/-- The strategy of an order is the one its name gives. -/
theorem strategyOfOrder_eq_some_iff {h : Host} {strategyId : String} :
    h.strategyOfOrder id = some strategyId ↔
      ∃ proposalId ∈ proposalIdFromClientOrderId id, h.strategyOf proposalId = some strategyId := by
  simp [Host.strategyOfOrder, Host.strategyOf, Coordinator.proposalOf, Option.bind_eq_some_iff]

/-- A fill is signed by the side of its order. -/
theorem signedFill_eq {side : Side} {quantity : Int} (hpos : 0 < quantity) :
    Host.signedFill side quantity = if some side = some .buy then quantity else -quantity := by
  have hneg : saturatingNeg 64 quantity = -quantity := if_neg (by omega)
  rw [Host.signedFill, hneg]
  simp

/-- **A fill** of an order that was made for a strategy is counted by the summary of this strategy,
and no other fill is counted. -/
theorem Sound.complete_filled (hd : d.Sound) {quantity price : Int}
    (hgood : d.Attributes env (.applyBrokerEvent (.filled id quantity price))) :
    (step (env, .applyBrokerEvent (.filled id quantity price)) d).Complete := by
  by_cases htaken : Host.Delivers env d.host (.filled id quantity price) ∧
      d.host.runtime.TakesEvent (.filled id quantity price)
  · obtain ⟨hdelivers, htakes⟩ := htaken
    obtain ⟨hpos, hmoved⟩ := Host.applyBrokerEvent_moved hdelivers htakes
    have horder : d.host.runtime.hasOrder id = true := by
      obtain ⟨record, hget, -⟩ := htakes
      rw [Runtime.hasOrder, hget]
      rfl
    cases hmade : d.madeFrom id with
    | none =>
      have hnone : d.host.strategyOfOrder id = none := by
        refine Option.eq_none_iff_forall_ne_some.mpr fun strategyId hstrategy => ?_
        obtain ⟨proposalId, hid, hrecorded⟩ := strategyOfOrder_eq_some_iff.mp hstrategy
        have hfrom := hd.made id horder proposalId hid strategyId hrecorded
        rw [hmade] at hfrom
        cases hfrom
      refine hd.complete.of_eq (Host.applyBrokerEvent_unattributed hdelivers hnone) ?_
      simp only [step, fillsAfter, hmade]
    | some strategyId =>
      obtain ⟨⟨proposalId, hid, hrecorded⟩, hlegal, hgraphs, hroom⟩ :=
        hgood hdelivers htakes strategyId hmade
      obtain ⟨named, hnamed⟩ := Option.isSome_iff_exists.mp hrecorded
      have hfrom := hd.made id horder proposalId hid named hnamed
      rw [hmade, Option.some.injEq] at hfrom
      subst hfrom
      obtain ⟨side, hside, hsummaries⟩ := Host.applyBrokerEvent_attributed hdelivers htakes
        (strategyOfOrder_eq_some_iff.mpr ⟨proposalId, hid, hnamed⟩) hlegal hgraphs
      rw [hside, ← signedFill_eq hpos] at hroom
      obtain ⟨hcount, hfilled⟩ := StrategyExecutionSummary.addFill_of_hasRoom price hroom
      refine hd.complete.of_fill hsummaries hfilled hcount ?_
      have hgrown : d.host.runtime.filledQuantity id <
          ((Op.applyBrokerEvent (.filled id quantity price)).after env
            d.host).runtime.filledQuantity id :=
        hmoved ▸ Int.lt_add_of_pos_right _ hpos
      simp only [step, fillsAfter, hmade, if_pos hgrown, hside, signedFill_eq hpos]
  · obtain ⟨hkept, hsummaries⟩ := Host.applyBrokerEvent_untaken d.host htaken
    refine hd.complete.of_eq hsummaries ?_
    have hstill : ¬d.host.runtime.filledQuantity id <
        ((Op.applyBrokerEvent (.filled id quantity price)).after env
          d.host).runtime.filledQuantity id :=
      (le_of_eq hkept).not_gt
    simp only [step, fillsAfter, if_neg hstill]
    split <;> rfl

/-- **A fill is missed** when its order was made for a strategy and names no recorded proposal, as
no child does. -/
theorem Complete.missed (hd : d.Complete) {quantity price : Int} {strategyId : String}
    (hdelivers : Host.Delivers env d.host (.filled id quantity price))
    (htakes : d.host.runtime.TakesEvent (.filled id quantity price))
    (hmade : d.madeFrom id = some strategyId) (hstray : d.host.strategyOfOrder id = none) :
    ¬(step (env, .applyBrokerEvent (.filled id quantity price)) d).Complete := by
  intro hafter
  obtain ⟨hpos, hmoved⟩ := Host.applyBrokerEvent_moved hdelivers htakes
  have hgrown : d.host.runtime.filledQuantity id <
      ((Op.applyBrokerEvent (.filled id quantity price)).after env
        d.host).runtime.filledQuantity id := hmoved ▸ Int.lt_add_of_pos_right _ hpos
  have hsummaries : (step (env, .applyBrokerEvent (.filled id quantity price))
      d).host.strategyExecutionSummaries = d.host.strategyExecutionSummaries :=
    Host.applyBrokerEvent_unattributed hdelivers hstray
  have hcount := (hafter strategyId).2
  rw [Host.summaryOf, hsummaries, ← Host.summaryOf, (hd strategyId).2] at hcount
  simp [step, fillsAfter, fillsOf, hmade, hgrown] at hcount

/-- **A broker event** makes no order and gives none another strategy. -/
theorem Sound.step_event (hd : d.Sound) {event : BrokerEvent}
    (hgood : d.Attributes env (.applyBrokerEvent event)) :
    (step (env, .applyBrokerEvent event) d).Sound := by
  have hbooks : Host.Books (fun _ => False) d.host (Host.applyBrokerEvent env event d.host).2 :=
    Host.applyBrokerEvent_books d.host
  have hknown {id : String} (horder : (step (env, .applyBrokerEvent event)
      d).host.runtime.hasOrder id = true) : d.host.runtime.hasOrder id = true :=
    (hbooks.runtime.hasOrder id horder).resolve_right not_false
  refine ⟨hbooks.runtime.nameless hd.nameless, fun id horder => ?_, fun id horder proposalId hid
    strategyId hstrategy => ?_, ?_⟩
  · exact Runtime.NamedAfter.congr hbooks.runtime.accountId (hd.named id (hknown horder))
  · refine (madeAfter_of_known (hknown horder)).trans (hd.made id (hknown horder) proposalId hid
      strategyId ?_)
    rw [Host.strategyOf, ← hbooks.proposals]
    exact hstrategy
  · have hquiet (hevent : event.isFill = false) :
        Host.Makes (fun _ => False) d.host (Host.applyBrokerEvent env event d.host).2 :=
      Host.applyBrokerEvent_of_not_fill hevent d.host
    cases event with
    | filled => exact hd.complete_filled hgood
    | acknowledged => exact hd.complete.of_eq (hquiet rfl).summaries rfl
    | rejected => exact hd.complete.of_eq (hquiet rfl).summaries rfl
    | cancelled => exact hd.complete.of_eq (hquiet rfl).summaries rfl

/-- **One call** that meets the condition. -/
theorem Sound.step (hd : d.Sound) (henv : op.reconciles = true → env.ReportsNoFill)
    (hgood : d.Attributes env op) : (step (env, op) d).Sound := by
  by_cases hadmission : ∃ proposal now, op = .submitStrategyProposal proposal now
  · obtain ⟨proposal, now, rfl⟩ := hadmission
    exact hd.step_admission hgood
  by_cases hevent : ∃ event, op = .applyBrokerEvent event
  · obtain ⟨event, rfl⟩ := hevent
    exact hd.step_event hgood
  simp only [not_exists] at hadmission hevent
  refine hd.step_orderly hgood (Op.orderly henv hadmission hevent d.host hd.nameless) ?_
  cases op with
  | applyBrokerEvent event => exact absurd rfl (hevent event)
  | _ => rfl

end Blotter

/-- **Attribution is complete** along every run from a new host in which reconciliation brings no
fill and every call meets the condition. -/
theorem attribution_complete (settings : Settings) (run : List (Env × Op))
    (hfills : ∀ call ∈ run, call.2.reconciles = true → call.1.ReportsNoFill)
    (hgood : ∀ c ∈ Runs.calls Blotter.step (Blotter.opened (Host.start settings)) run,
      c.1.Attributes c.2.1 c.2.2) :
    ∀ d ∈ Runs.states Blotter.step (Blotter.opened (Host.start settings)) run, d.Complete := by
  intro d hd
  have hstep (call : Env × Op) (d : Blotter) (hcall : call.2.reconciles = true → call.1.ReportsNoFill)
      (hd : d.Sound) (hcond : d.Attributes call.1 call.2) : (Blotter.step call d).Sound :=
    hd.step hcall hcond
  exact (Runs.states_of_step hstep (Blotter.opened_sound settings) hfills hgood d hd).complete

namespace Sample

/-- A session in which a proposal is admitted, submitted by a call and filled. -/
def filledRun (op : Op) (clientOrderId : String) (quantityTicks : Int) : List (Env × Op) :=
  [(env empty, .reconcileTrigger), (env empty, .submitStrategyProposal (proposal 5 10) 1000),
    (env empty, op), (env empty, .applyBrokerEvent (.filled clientOrderId quantityTicks 100))]

/-- The proposal is submitted whole. -/
def wholeRun : List (Env × Op) := filledRun (submit 5 10) (orderId 5) 10

/-- The blotter once the proposal is admitted. -/
def admitted : Blotter :=
  Blotter.step (env empty, .submitStrategyProposal (proposal 5 10) 1000)
    (Blotter.step (env empty, .reconcileTrigger) (Blotter.opened (Host.start settings)))

/-- The blotter once it is submitted whole. -/
def sent : Blotter := Blotter.step (env empty, submit 5 10) admitted

/-- The proposal is planned in three slices. -/
def childRun : List (Env × Op) :=
  filledRun (.submitScheduledProposal (proposal 5 10) (.twap 3 1000) 1000 3)
    (orderId 5 ++ "-child-1") 3

/-- Another proposal is submitted, that was never admitted. -/
def strayRun : List (Env × Op) := filledRun (submit 6 10) (orderId 6) 10

theorem env_reportsNoFill : (env empty).ReportsNoFill where
  reconcile calls id event h := by cases h
  snapshot calls snapshot h order horder := by
    cases h
    cases horder

theorem reportsNoFill_of_mem {op : Op} {id : String} {quantity : Int} {call : Env × Op}
    (hcall : call ∈ filledRun op id quantity) : call.1.ReportsNoFill := by
  have henv : call.1 = env empty := by
    simp only [filledRun, List.mem_cons, List.not_mem_nil, or_false] at hcall
    rcases hcall with rfl | rfl | rfl | rfl <;> rfl
  rw [henv]
  exact env_reportsNoFill

end Sample

/-- A whole order is attributed. -/
theorem attribution_complete_whole :
    (Runs.final Blotter.step (Blotter.opened (Host.start Sample.settings))
      Sample.wholeRun).Complete := by
  refine attribution_complete Sample.settings Sample.wholeRun
    (fun call hcall _ => Sample.reportsNoFill_of_mem hcall) (fun c hc => ?_) _
    (Runs.final_mem_states _ Sample.wholeRun)
  simp only [Sample.wholeRun, Sample.filledRun, Runs.calls, List.mem_cons, List.not_mem_nil,
    or_false] at hc
  rcases hc with rfl | rfl | rfl | rfl
  · trivial
  · exact fun _ horder => absurd horder (by decide)
  · have hstrategy : ∀ strategyId ∈ Sample.admitted.host.strategyOf 5, strategyId = "trend" := by
      decide
    exact hstrategy
  · have hsent : Sample.sent.madeFrom (Sample.orderId 5) = some "trend" ∧
        (proposalIdFromClientOrderId (Sample.orderId 5) = some 5 ∧
          (Sample.sent.host.strategyOf 5).isSome) ∧
        ¬Sample.sent.host.runtime.SplitsFill (.filled (Sample.orderId 5) 10 100) ∧
        Host.Graphs (Sample.env Sample.empty) Sample.sent.host
          (.filled (Sample.orderId 5) 10 100) ∧
        (Sample.sent.host.summaryOf "trend").HasRoom
          (if Sample.sent.host.runtime.orderSide (Sample.orderId 5) = some .buy then 10
            else -10) := by
      decide +kernel
    obtain ⟨htrend, hnamed, hlegal, hgraphs, hroom⟩ := hsent
    intro _ _ strategyId hmade
    obtain rfl := Option.some.inj (htrend.symm.trans hmade)
    exact ⟨⟨5, hnamed⟩, hlegal, hgraphs, hroom⟩

/-- **Fills are missed** of a child, and of an order whose proposal was never admitted. -/
theorem fills_missed :
    ((∀ call ∈ Sample.childRun, call.2.reconciles = true → call.1.ReportsNoFill) ∧
      ¬∀ d ∈ Runs.states Blotter.step (Blotter.opened (Host.start Sample.settings))
        Sample.childRun, d.Complete) ∧
    (∀ call ∈ Sample.strayRun, call.2.reconciles = true → call.1.ReportsNoFill) ∧
      ¬∀ d ∈ Runs.states Blotter.step (Blotter.opened (Host.start Sample.settings))
        Sample.strayRun, d.Complete := by
  have hmissed (run : List (Env × Op))
      (hfinal : let d := Runs.final Blotter.step (Blotter.opened (Host.start Sample.settings)) run
        (d.host.summaryOf "trend").fillCount ≠ (d.fillsOf "trend").length) :
      ¬∀ d ∈ Runs.states Blotter.step (Blotter.opened (Host.start Sample.settings)) run,
        d.Complete :=
    fun hcomplete => hfinal (hcomplete _ (Runs.final_mem_states _ run) "trend").2
  have hchild := hmissed Sample.childRun (by decide +kernel)
  have hstray := hmissed Sample.strayRun (by decide +kernel)
  exact ⟨⟨fun call hcall _ => Sample.reportsNoFill_of_mem hcall, hchild⟩,
    fun call hcall _ => Sample.reportsNoFill_of_mem hcall, hstray⟩

end InsiderTrader
