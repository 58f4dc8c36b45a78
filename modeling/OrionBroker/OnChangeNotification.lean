import OrionBroker.TriggeredSubscription
import OrionBroker.UpdateAttribute

/-!
# The content of a notification (`processOnChangeConditionForUpdateContext`)

A subscription that is triggered by an update is notified of the entity, with the attributes that it lists.  An attribute
that the update deletes is only marked (`deleteAttrInNotifyCer`); the mark is looked at for the listed attributes.  A
subscription without list gets all attributes, the deleted ones as well (`notified_content_iff`).
-/

namespace OrionBroker.OnChangeNotification

/-- The request that is handed to the notifier, with where it goes. -/
structure NotifyContextRequest where
  subscriptionId : String
  originator : String
  contextElementResponseVector : List ContextElementResponse
  notifyUrl : String
  tenant : String
  xauthToken : String
  fiwareCorrelator : String
  renderFormat : RenderFormat
  attrsOrder : List String

/-- The inner loop, for an attribute of the entity. -/
def addListed (attrL : List String) (caP : ContextAttribute) (caV : List ContextAttribute) : List ContextAttribute :=
  attrL.foldl (fun caV name => if caP.name = name && !caP.skip then caV ++ [caP] else caV) caV

/-- The outer loop. -/
def filteredAttributes (attrL : List String) (notified : List ContextAttribute) : List ContextAttribute :=
  notified.foldl (fun caV caP => if attrL.length = 0 then caV ++ [caP] else addListed attrL caP caV) []

/-- What is sent; nothing if `false` is returned. -/
def processOnChangeConditionForUpdateContext (notifyCerP : ContextElementResponse) (attrL : List String)
    (subId notifyUrl : String) (renderFormat : RenderFormat) (tenant xauthToken fiwareCorrelator : String)
    (attrsOrder : List String) : Option NotifyContextRequest :=
  let caV := filteredAttributes attrL notifyCerP.contextElement.contextAttributeVector
  if caV.length = 0 then none
  else
    let cer : ContextElementResponse :=
      { contextElement := { entityId := notifyCerP.contextElement.entityId, contextAttributeVector := caV }
        statusCode := { code := .SccOk } }
    some
      { subscriptionId := subId, originator := "localhost", contextElementResponseVector := [cer], notifyUrl := notifyUrl
        tenant := tenant, xauthToken := xauthToken, fiwareCorrelator := fiwareCorrelator, renderFormat := renderFormat
        attrsOrder := attrsOrder }

/-! ### What is promised -/

/-- The attributes that are not deleted and that the subscription lists, or all if it has no list. -/
def selected (attrL : List String) (notified : List ContextAttribute) : List ContextAttribute :=
  notified.filter fun ca => !ca.skip && (attrL = [] || ca.name ∈ attrL)

/-- The attributes that are sent, none if nothing is sent. -/
def NotifyContextRequest.attributes (ncr : NotifyContextRequest) : List ContextAttribute :=
  ncr.contextElementResponseVector.flatMap fun cer => cer.contextElement.contextAttributeVector

/-- The selected attributes are sent, each once; nothing is sent exactly if there is none. -/
def SendsSelected (attrL : List String) (notified : List ContextAttribute) (sent : Option NotifyContextRequest) : Prop :=
  (sent = none ↔ selected attrL notified = []) ∧ ∀ ncr ∈ sent, ncr.attributes = selected attrL notified

/-! ### The loops -/

theorem addListed_eq (attrL : List String) (caP : ContextAttribute) (caV : List ContextAttribute) :
    addListed attrL caP caV =
      caV ++ attrL.filterMap fun name => if caP.name = name ∧ caP.skip = false then some caP else none := by
  unfold addListed
  induction attrL generalizing caV with
  | nil => simp
  | cons name attrL ih =>
    rw [List.foldl_cons, ih]
    by_cases hname : caP.name = name ∧ caP.skip = false
    · simp [hname]
    · have hnone : (caP.name = name && !caP.skip) = false := by
        rw [not_and] at hname
        simpa using hname
      rw [hnone]
      simp [hname]

/-- The loops compute the attributes that `processSubscriptions` sends. -/
theorem filteredAttributes_eq_notifiedAttributes (attrL : List String) (notified : List ContextAttribute) :
    filteredAttributes attrL notified = notifiedAttributes attrL notified := by
  have hloop (caV : List ContextAttribute) :
      notified.foldl (fun caV caP => if attrL.length = 0 then caV ++ [caP] else addListed attrL caP caV) caV =
        caV ++ notifiedAttributes attrL notified := by
    unfold notifiedAttributes
    induction notified generalizing caV with
    | nil => simp
    | cons caP notified ih =>
      rw [List.foldl_cons, ih]
      by_cases hattrL : attrL = []
      · simp [hattrL]
      · have hlength : attrL.length ≠ 0 := mt List.length_eq_zero_iff.1 hattrL
        simp [hattrL, addListed_eq]
  exact hloop []

/-- A list without repetitions has a name once. -/
theorem filterMap_of_nodup {attrL : List String} (h : attrL.Nodup) (ca : ContextAttribute) :
    (attrL.filterMap fun name => if ca.name = name ∧ ca.skip = false then some ca else none) =
      if !ca.skip && ca.name ∈ attrL then [ca] else [] := by
  induction attrL with
  | nil => simp
  | cons name attrL ih =>
    obtain ⟨hname, hattrL⟩ := List.nodup_cons.1 h
    rw [List.filterMap_cons, ih hattrL]
    by_cases hca : ca.name = name
    · subst hca
      cases hskip : ca.skip <;> simp [hname]
    · simp [hca]

/-- The deletion mark is looked at only if there is a list. -/
theorem notifiedAttributes_eq {attrL : List String} (h : attrL.Nodup) (notified : List ContextAttribute) :
    notifiedAttributes attrL notified = notified.filter fun ca => attrL = [] || !ca.skip && ca.name ∈ attrL := by
  unfold notifiedAttributes
  by_cases hattrL : attrL = []
  · simp [hattrL]
  · rw [if_neg hattrL]
    induction notified with
    | nil => rfl
    | cons ca notified ih =>
      rw [List.flatMap_cons, ih, filterMap_of_nodup h, List.filter_cons, decide_eq_false hattrL, Bool.false_or]
      split <;> simp

theorem notifiedAttributes_eq_selected_iff {attrL : List String} (h : attrL.Nodup) (notified : List ContextAttribute) :
    notifiedAttributes attrL notified = selected attrL notified ↔ attrL ≠ [] ∨ ∀ ca ∈ notified, ca.skip = false := by
  rw [notifiedAttributes_eq h, selected]
  by_cases hattrL : attrL = []
  · have hall : notified.filter (fun _ => true) = notified := List.filter_true notified
    simp only [hattrL, decide_true, Bool.true_or, Bool.and_true, hall, ne_eq, not_true, false_or]
    rw [eq_comm, List.filter_eq_self]
    simp
  · simp [hattrL]

/-- What is sent, in terms of the attributes. -/
theorem sendsSelected_iff (notifyCerP : ContextElementResponse) (attrL : List String) (subId notifyUrl : String)
    (renderFormat : RenderFormat) (tenant xauthToken fiwareCorrelator : String) (attrsOrder : List String) :
    SendsSelected attrL notifyCerP.contextElement.contextAttributeVector
        (processOnChangeConditionForUpdateContext notifyCerP attrL subId notifyUrl renderFormat tenant xauthToken
          fiwareCorrelator attrsOrder) ↔
      notifiedAttributes attrL notifyCerP.contextElement.contextAttributeVector =
        selected attrL notifyCerP.contextElement.contextAttributeVector := by
  unfold SendsSelected processOnChangeConditionForUpdateContext
  rw [filteredAttributes_eq_notifiedAttributes]
  generalize notifiedAttributes attrL notifyCerP.contextElement.contextAttributeVector = sent
  by_cases hsent : sent = []
  · rw [hsent]
    simp only [List.length_nil, if_true, true_iff, reduceCtorEq, Option.mem_def, false_implies, implies_true, and_true]
    exact eq_comm
  · have hlength : sent.length ≠ 0 := mt List.length_eq_zero_iff.1 hsent
    simp only [if_neg hlength, reduceCtorEq, false_iff, Option.mem_def, Option.some.injEq, forall_eq']
    constructor
    · rintro ⟨-, h⟩
      simpa [NotifyContextRequest.attributes] using h
    · intro h
      refine ⟨h ▸ hsent, ?_⟩
      simpa [NotifyContextRequest.attributes] using h

/-- A notification has the selected attributes if and only if the subscription has a list of attributes or no attribute
is marked as deleted. -/
theorem notified_content_iff (notifyCerP : ContextElementResponse) {attrL : List String} (h : attrL.Nodup)
    (subId notifyUrl : String) (renderFormat : RenderFormat) (tenant xauthToken fiwareCorrelator : String)
    (attrsOrder : List String) :
    SendsSelected attrL notifyCerP.contextElement.contextAttributeVector
        (processOnChangeConditionForUpdateContext notifyCerP attrL subId notifyUrl renderFormat tenant xauthToken
          fiwareCorrelator attrsOrder) ↔
      attrL ≠ [] ∨ ∀ ca ∈ notifyCerP.contextElement.contextAttributeVector, ca.skip = false := by
  rw [sendsSelected_iff, notifiedAttributes_eq_selected_iff h]

/-- The entity `E` with the attributes `a`, which is deleted, and `b`. -/
def entityWithDeleted : ContextElementResponse where
  contextElement :=
    { entityId := { id := "E", type := "T" }
      contextAttributeVector := deleteAttrInNotifyCer { name := "a", type := "" }
        [{ name := "a", type := "T", stringValue := "1" }, { name := "b", type := "T", stringValue := "2" }] }

/-- With a list of attributes the deleted one is left out. -/
theorem listed_content :
    SendsSelected ["a", "b"] entityWithDeleted.contextElement.contextAttributeVector
      (processOnChangeConditionForUpdateContext entityWithDeleted ["a", "b"] "s" "http://h" .NGSI_V2_NORMALIZED "" "" ""
        ["a", "b"]) :=
  (notified_content_iff entityWithDeleted (show ["a", "b"].Nodup by decide) "s" "http://h" .NGSI_V2_NORMALIZED "" "" ""
    ["a", "b"]).2 (Or.inl (by decide))

/-- Without a list the deleted attribute is sent. -/
theorem deleted_attribute_sent :
    ¬ SendsSelected [] entityWithDeleted.contextElement.contextAttributeVector
      (processOnChangeConditionForUpdateContext entityWithDeleted [] "s" "http://h" .NGSI_V2_NORMALIZED "" "" "" []) := by
  rw [sendsSelected_iff]
  intro h
  have hlength := congrArg List.length h
  revert hlength
  decide +kernel

/-- No attribute of a deleted name is selected, so that a notification with the selected attributes has none. -/
theorem deleted_not_selected (targetAttr : ContextAttribute) (attrL : List String) (notified : List ContextAttribute) :
    targetAttr.name ∉ (selected attrL (deleteAttrInNotifyCer targetAttr notified)).map ContextAttribute.name := by
  intro hmem
  obtain ⟨ca, hca, hname⟩ := List.mem_map.1 hmem
  obtain ⟨hca, hkept⟩ := List.mem_filter.1 hca
  obtain ⟨before, -, rfl⟩ := List.mem_map.1 hca
  by_cases hbefore : before.name = targetAttr.name
  · simp [hbefore] at hkept
  · rw [if_neg hbefore] at hname
    exact hbefore hname

end OrionBroker.OnChangeNotification
