import SecurePubSub.Authority.StaticPolicy

namespace SecurePubSub.Authority

open SecurePubSub.Data SecurePubSub.Data.Fallible SecurePubSub.Protocol

/-! Mandatory delivery policy rests on the CA's approvals alone.

Every restriction a builder can add names a CA-issued attribute, and an accepted
environment shows a CA-issued attribute exactly as it was approved.
-/

namespace StaticEnvironmentPolicy

/-! ## What each builder call does -/

def CaIssued (policy : StaticEnvironmentPolicy) (attributeId : AttributeId) : Prop :=
  ∃ rule, policy.rules.get attributeId = some rule ∧ rule.authority = .caIssued

theorem ruleFor_eq_ok {policy : StaticEnvironmentPolicy} {attributeId : AttributeId}
    {rule : AttributeRule} :
    policy.ruleFor attributeId = .ok rule ↔ policy.rules.get attributeId = some rule := by
  rw [ruleFor]
  cases policy.rules.get attributeId <;> simp

theorem registerRule_eq_ok {policy after : StaticEnvironmentPolicy} {attributeId : AttributeId}
    {attributeType : AttributeType} {authority : AttributeAuthority}
    (registered : policy.registerRule attributeId attributeType authority = .ok after) :
    after = policy ∨ policy.rules.get attributeId = none ∧
      after = { policy with rules := policy.rules.insert attributeId ⟨attributeType, authority⟩ } := by
  rw [registerRule] at registered
  cases known : policy.rules.get attributeId with
  | none =>
      simp only [known] at registered
      exact .inr ⟨rfl, (Except.ok.inj registered).symm⟩
  | some existing =>
      simp only [known] at registered
      split at registered
      · cases registered
      · exact .inl (Except.ok.inj registered).symm

theorem allowValue_eq_ok {policy after : StaticEnvironmentPolicy} {attributeId : AttributeId}
    {value : AttributeValue} (allowed : policy.allowValue attributeId value = .ok after) :
    after = { policy with
      allowedValues := policy.allowedValues.insert attributeId
        (pushNew ((policy.allowedValues.get attributeId).getD []) value) } := by
  obtain ⟨rule, _, allowed⟩ := bind_eq_ok.mp allowed
  obtain ⟨_, allowed⟩ := rejectIf_bind_eq_ok allowed
  cases allowed
  rfl

theorem approve_eq_ok {policy after : StaticEnvironmentPolicy} {agent : AgentId}
    {attributeId : AttributeId} {value : AttributeValue}
    (approved : policy.approve agent attributeId value = .ok after) :
    policy.CaIssued attributeId ∧
      after = { policy with
        approvals := policy.approvals.insert (toLex (agent, attributeId)) value } := by
  obtain ⟨rule, known, approved⟩ := bind_eq_ok.mp approved
  obtain ⟨issued, approved⟩ := rejectIf_bind_eq_ok approved
  obtain ⟨⟨⟩, _, approved⟩ := bind_eq_ok.mp approved
  cases approved
  exact ⟨⟨rule, ruleFor_eq_ok.mp known, not_not.mp issued⟩, rfl⟩

theorem requireCaIssued_eq_ok {policy : StaticEnvironmentPolicy} {attributes : List AttributeId}
    (required : policy.requireCaIssued attributes = .ok ()) :
    ∀ attributeId ∈ attributes, policy.CaIssued attributeId := by
  induction attributes with
  | nil => exact fun _ member => nomatch member
  | cons head rest ih =>
      obtain ⟨rule, known, required⟩ := bind_eq_ok.mp required
      obtain ⟨issued, required⟩ := rejectIf_bind_eq_ok required
      intro attributeId member
      cases List.mem_cons.mp member with
      | inl same => exact same ▸ ⟨rule, ruleFor_eq_ok.mp known, not_not.mp issued⟩
      | inr later => exact ih required attributeId later

theorem isolate_eq_ok {policy after : StaticEnvironmentPolicy} {typeId : TypeId}
    {attributes : List AttributeId} (isolated : policy.isolate typeId attributes = .ok after) :
    (∀ attributeId ∈ attributes, policy.CaIssued attributeId) ∧
      after = { policy with isolation := policy.isolation.insert typeId attributes } := by
  obtain ⟨_, isolated⟩ := rejectIf_bind_eq_ok isolated
  obtain ⟨⟨⟩, required, isolated⟩ := bind_eq_ok.mp isolated
  cases isolated
  exact ⟨requireCaIssued_eq_ok required, rfl⟩

/-- The policy with one more admitted subscriber value. -/
def requireValue (policy : StaticEnvironmentPolicy) (typeId : TypeId) (attributeId : AttributeId)
    (value : AttributeValue) : StaticEnvironmentPolicy :=
  let values := (policy.subscriberRequirements.get (toLex (typeId, attributeId))).getD []
  { policy with subscriberRequirements :=
    policy.subscriberRequirements.insert (toLex (typeId, attributeId)) (pushNew values value) }

theorem allowSubscriberValue_eq_ok {policy after : StaticEnvironmentPolicy} {typeId : TypeId}
    {attributeId : AttributeId} {value : AttributeValue}
    (allowed : policy.allowSubscriberValue typeId attributeId value = .ok after) :
    policy.CaIssued attributeId ∧
      after = policy.requireValue typeId attributeId value := by
  obtain ⟨rule, known, allowed⟩ := bind_eq_ok.mp allowed
  obtain ⟨issued, allowed⟩ := rejectIf_bind_eq_ok allowed
  obtain ⟨⟨⟩, _, allowed⟩ := bind_eq_ok.mp allowed
  cases allowed
  exact ⟨⟨rule, ruleFor_eq_ok.mp known, not_not.mp (not_or.mp issued).1⟩, rfl⟩

/-! ## Sequences of builder calls -/

inductive BuilderCall where
  | registerSelfDeclared (attributeId : AttributeId) (attributeType : AttributeType)
  | registerCaIssued (attributeId : AttributeId) (attributeType : AttributeType)
  | allowValue (attributeId : AttributeId) (value : AttributeValue)
  | approve (agent : AgentId) (attributeId : AttributeId) (value : AttributeValue)
  | isolate (typeId : TypeId) (attributes : List AttributeId)
  | allowSubscriberValue (typeId : TypeId) (attributeId : AttributeId) (value : AttributeValue)

def BuilderCall.run (policy : StaticEnvironmentPolicy) :
    BuilderCall → Except EnvironmentPolicyError StaticEnvironmentPolicy
  | registerSelfDeclared attributeId attributeType =>
      policy.registerSelfDeclared attributeId attributeType
  | registerCaIssued attributeId attributeType => policy.registerCaIssued attributeId attributeType
  | allowValue attributeId value => policy.allowValue attributeId value
  | approve agent attributeId value => policy.approve agent attributeId value
  | isolate typeId attributes => policy.isolate typeId attributes
  | allowSubscriberValue typeId attributeId value =>
      policy.allowSubscriberValue typeId attributeId value

def afterCall (policy : StaticEnvironmentPolicy) (call : BuilderCall) : StaticEnvironmentPolicy :=
  match call.run policy with
  | .ok after => after
  | .error _ => policy

def built (calls : List BuilderCall) : StaticEnvironmentPolicy := calls.foldl afterCall new

/-- Approvals and restrictions name CA-issued attributes only. -/
structure RestsOnCa (policy : StaticEnvironmentPolicy) : Prop where
  approvals : ∀ {agent attributeId value},
    policy.approvals.get (toLex (agent, attributeId)) = some value → policy.CaIssued attributeId
  isolation : ∀ {typeId attributes}, policy.isolation.get typeId = some attributes →
    ∀ attributeId ∈ attributes, policy.CaIssued attributeId
  requirements : ∀ {typeId attributeId values},
    policy.subscriberRequirements.get (toLex (typeId, attributeId)) = some values →
      policy.CaIssued attributeId

theorem RestsOnCa.new : RestsOnCa new :=
  ⟨(nomatch ·), (nomatch ·), (nomatch ·)⟩

/-- A registration touches the rules only, and keeps those that are there. -/
theorem registerRule_extends {policy after : StaticEnvironmentPolicy} {attributeId : AttributeId}
    {attributeType : AttributeType} {authority : AttributeAuthority}
    (registered : policy.registerRule attributeId attributeType authority = .ok after) :
    (∃ rules, after = { policy with rules }) ∧ ∀ {other rule},
      policy.rules.get other = some rule → after.rules.get other = some rule := by
  obtain same | ⟨absent, result⟩ := registerRule_eq_ok registered
  · subst same
    exact ⟨⟨after.rules, rfl⟩, fun known => known⟩
  · subst result
    refine ⟨⟨_, rfl⟩, @fun other rule known => ?_⟩
    have different : other ≠ attributeId := by
      intro same
      rw [same, absent] at known
      cases known
    simp only [SortedMap.get_insert, if_neg different, known]

theorem RestsOnCa.registerRule {policy after : StaticEnvironmentPolicy} {attributeId : AttributeId}
    {attributeType : AttributeType} {authority : AttributeAuthority} (sound : policy.RestsOnCa)
    (registered : policy.registerRule attributeId attributeType authority = .ok after) :
    after.RestsOnCa := by
  obtain ⟨⟨rules, rfl⟩, kept⟩ := registerRule_extends registered
  have issued : ∀ {other}, policy.CaIssued other →
      CaIssued { policy with rules } other := by
    rintro other ⟨rule, known, authority⟩
    exact ⟨rule, kept known, authority⟩
  constructor
  · intro agent attributeId value found
    exact issued (sound.approvals found)
  · intro typeId attributes found attributeId member
    exact issued (sound.isolation found attributeId member)
  · intro typeId attributeId values found
    exact issued (sound.requirements found)

theorem RestsOnCa.run {policy after : StaticEnvironmentPolicy} {call : BuilderCall}
    (sound : policy.RestsOnCa) (done : call.run policy = .ok after) : after.RestsOnCa := by
  cases call with
  | registerSelfDeclared => exact sound.registerRule done
  | registerCaIssued => exact sound.registerRule done
  | allowValue =>
      have result := allowValue_eq_ok done
      subst result
      exact ⟨sound.approvals, sound.isolation, sound.requirements⟩
  | approve agent attributeId value =>
      obtain ⟨issued, result⟩ := approve_eq_ok done
      subst result
      refine ⟨@fun other otherId held found => ?_, sound.isolation, sound.requirements⟩
      rw [SortedMap.get_insert] at found
      split at found
      · rename_i same
        have sameId : otherId = attributeId := congrArg (fun key => (ofLex key).2) same
        exact sameId ▸ issued
      · exact sound.approvals found
  | isolate typeId attributes =>
      obtain ⟨issued, result⟩ := isolate_eq_ok done
      subst result
      refine ⟨sound.approvals, @fun other listed found => ?_, sound.requirements⟩
      rw [SortedMap.get_insert] at found
      split at found
      · cases found
        exact issued
      · exact sound.isolation found
  | allowSubscriberValue typeId attributeId value =>
      obtain ⟨issued, result⟩ := allowSubscriberValue_eq_ok done
      subst result
      refine ⟨sound.approvals, sound.isolation, @fun other otherId values found => ?_⟩
      simp only [requireValue, SortedMap.get_insert] at found
      split at found
      · rename_i same
        have sameId : otherId = attributeId := congrArg (fun key => (ofLex key).2) same
        exact sameId ▸ issued
      · exact sound.requirements found

theorem RestsOnCa.afterCall {policy : StaticEnvironmentPolicy} (sound : policy.RestsOnCa)
    (call : BuilderCall) : (policy.afterCall call).RestsOnCa := by
  rw [StaticEnvironmentPolicy.afterCall]
  split
  · rename_i after done
    exact sound.run done
  · exact sound

theorem restsOnCa_built (calls : List BuilderCall) : (built calls).RestsOnCa := by
  have kept : ∀ policy : StaticEnvironmentPolicy, policy.RestsOnCa →
      (calls.foldl StaticEnvironmentPolicy.afterCall policy).RestsOnCa := by
    induction calls with
    | nil => exact fun _ sound => sound
    | cons call later ih => exact fun policy sound => ih _ (sound.afterCall call)
  exact kept _ .new

/-! ## Validation is exact on CA-issued attributes -/

theorem checkAttributes_eq_ok {policy : StaticEnvironmentPolicy} {agent : AgentId}
    {entries : List AttributeRef} (checked : policy.checkAttributes agent entries = .ok ()) :
    ∀ entry ∈ entries, policy.checkAttribute agent entry = .ok () := by
  induction entries with
  | nil => exact fun _ member => nomatch member
  | cons head rest ih =>
      obtain ⟨⟨⟩, first, later⟩ := bind_eq_ok.mp checked
      intro entry member
      cases List.mem_cons.mp member with
      | inl same => exact same ▸ first
      | inr inRest => exact ih later entry inRest

/-- A CA-issued attribute passes only with the approved value. -/
theorem approved_of_checkAttribute {policy : StaticEnvironmentPolicy} {agent : AgentId}
    {entry : AttributeRef} (checked : policy.checkAttribute agent entry = .ok ())
    (issued : policy.CaIssued entry.id) :
    ∃ value, policy.approvals.get (toLex (agent, entry.id)) = some value ∧
      entry.value = value.asRef := by
  obtain ⟨rule, known, authority⟩ := issued
  simp only [checkAttribute, known] at checked
  obtain ⟨_, checked⟩ := rejectIf_bind_eq_ok checked
  obtain ⟨_, checked⟩ := rejectIf_bind_eq_ok checked
  have approved := rejectIf_eq_ok.mp checked
  cases found : policy.approvals.get (toLex (agent, entry.id)) with
  | none => simp [authority, found] at approved
  | some value =>
      have matched : value.matchesRef entry.value = true := by
        simpa [authority, found] using approved
      exact ⟨value, rfl, AttributeValue.matchesRef_iff.mp matched⟩

def Accepts (policy : StaticEnvironmentPolicy) (agent : AgentId) (environment : EnvironmentRef) :
    Prop :=
  ∃ current, policy.validateEnvironment agent current environment = .ok ()

/-- What the CA approved for an agent, as a value that an environment can hold. -/
def approvedValue (policy : StaticEnvironmentPolicy) (agent : AgentId) (attributeId : AttributeId) :
    Option ValueRef :=
  (policy.approvals.get (toLex (agent, attributeId))).map AttributeValue.asRef

/-- An accepted environment shows a CA-issued attribute exactly as approved. -/
theorem Accepts.get_eq {policy : StaticEnvironmentPolicy} {agent : AgentId}
    {environment : EnvironmentRef} (accepted : policy.Accepts agent environment)
    {attributeId : AttributeId} (issued : policy.CaIssued attributeId) :
    environment.get attributeId = policy.approvedValue agent attributeId := by
  obtain ⟨current, accepted⟩ := accepted
  obtain ⟨⟨⟩, checked, complete⟩ := bind_eq_ok.mp accepted
  have nothingMissing := rejectIf_eq_ok.mp complete
  cases found : environment.get attributeId with
  | some held =>
      have member := EnvironmentRef.mem_iter_of_get found
      have passed := checkAttributes_eq_ok checked _ member
      obtain ⟨value, approved, same⟩ := approved_of_checkAttribute passed issued
      have same : held = value.asRef := same
      rw [approvedValue, approved, same]
      rfl
  | none =>
      cases approved : policy.approvals.get (toLex (agent, attributeId)) with
      | none => rw [approvedValue, approved]; rfl
      | some value =>
          have listed := SortedMap.get_eq_some.mp approved
          refine absurd (List.any_eq_true.mpr ⟨_, listed, ?_⟩) nothingMissing
          simp [missesApproval, found]

theorem all_congr_of_mem {α : Type} {items : List α} {left right : α → Bool}
    (same : ∀ item ∈ items, left item = right item) : items.all left = items.all right := by
  induction items with
  | nil => rfl
  | cons head rest ih =>
      have later := ih (fun item member => same item (List.mem_cons_of_mem _ member))
      rw [List.all_cons, List.all_cons, same head List.mem_cons_self, later]

/-- `allows_delivery` on the approved values in place of the two environments. -/
def allowsApproved (policy : StaticEnvironmentPolicy) (typeId : TypeId)
    (publisher subscriber : AgentId) : Bool :=
  (policy.isolation.get typeId).all (fun attributes => attributes.all (fun attributeId =>
      bothEqual (policy.approvedValue publisher attributeId)
        (policy.approvedValue subscriber attributeId))) &&
    (policy.subscriberRequirements.entries.filter
      (fun entry => (ofLex entry.1).1 = typeId)).all (fun entry =>
        (policy.approvedValue subscriber (ofLex entry.1).2).any (fun candidate =>
          entry.2.any (fun value => value.matchesRef candidate)))

/-- The decision is a function of the CA's approvals alone. -/
theorem allowsDelivery_eq_approved {policy : StaticEnvironmentPolicy} (sound : policy.RestsOnCa)
    {publisherId subscriberId : AgentId} {publisher subscriber : EnvironmentRef}
    (publisherAccepted : policy.Accepts publisherId publisher)
    (subscriberAccepted : policy.Accepts subscriberId subscriber) (typeId : TypeId) :
    policy.allowsDelivery typeId publisher subscriber =
      policy.allowsApproved typeId publisherId subscriberId := by
  have isolated : (policy.isolation.get typeId).all (fun attributes =>
        attributes.all (fun attributeId =>
          bothEqual (publisher.get attributeId) (subscriber.get attributeId))) =
      (policy.isolation.get typeId).all (fun attributes => attributes.all (fun attributeId =>
        bothEqual (policy.approvedValue publisherId attributeId)
          (policy.approvedValue subscriberId attributeId))) := by
    cases found : policy.isolation.get typeId with
    | none => rfl
    | some attributes =>
        have issued := sound.isolation found
        simp only [Option.all_some]
        refine all_congr_of_mem (fun attributeId member => ?_)
        rw [publisherAccepted.get_eq (issued attributeId member),
          subscriberAccepted.get_eq (issued attributeId member)]
  rw [allowsDelivery, allowsApproved, isolated]
  congr 1
  refine all_congr_of_mem (fun entry member => ?_)
  have listed := (List.mem_filter.mp member).1
  have issued : policy.CaIssued (ofLex entry.1).2 :=
    sound.requirements (SortedMap.get_eq_some.mpr listed)
  rw [subscriberAccepted.get_eq issued]

/-- Whatever attributes two agents choose or omit, a decision about them is the same. -/
theorem agents_cannot_influence_delivery (calls : List BuilderCall)
    {publisherId subscriberId : AgentId} {publisher publisher' subscriber subscriber' : EnvironmentRef}
    (publisherAccepted : (built calls).Accepts publisherId publisher)
    (publisherAccepted' : (built calls).Accepts publisherId publisher')
    (subscriberAccepted : (built calls).Accepts subscriberId subscriber)
    (subscriberAccepted' : (built calls).Accepts subscriberId subscriber') (typeId : TypeId) :
    (built calls).allowsDelivery typeId publisher subscriber =
      (built calls).allowsDelivery typeId publisher' subscriber' := by
  have sound := restsOnCa_built calls
  rw [allowsDelivery_eq_approved sound publisherAccepted subscriberAccepted,
    allowsDelivery_eq_approved sound publisherAccepted' subscriberAccepted']

/-- Attribute 1 is issued by the CA and isolates type 7; attribute 2 is self-declared. -/
def sampleCalls : List BuilderCall :=
  [.registerCaIssued ⟨1⟩ .bool, .registerSelfDeclared ⟨2⟩ .i64,
    .approve ⟨.fill 16 1⟩ ⟨1⟩ (.bool true), .approve ⟨.fill 16 2⟩ ⟨1⟩ (.bool true),
    .isolate ⟨7⟩ [⟨1⟩], .isolate ⟨7⟩ [⟨2⟩], .allowSubscriberValue ⟨7⟩ ⟨1⟩ (.bool true)]

theorem sample_cannot_influence_delivery :
    (built sampleCalls).allowsDelivery ⟨7⟩ (environmentRef [⟨⟨1⟩, .bool true⟩])
        (environmentRef [⟨⟨1⟩, .bool true⟩]) =
      (built sampleCalls).allowsDelivery ⟨7⟩
        (environmentRef [⟨⟨2⟩, .i64 9⟩, ⟨⟨1⟩, .bool true⟩])
        (environmentRef [⟨⟨1⟩, .bool true⟩, ⟨⟨2⟩, .i64 5⟩]) :=
  @agents_cannot_influence_delivery sampleCalls ⟨.fill 16 1⟩ ⟨.fill 16 2⟩ _ _ _ _
    ⟨none, by decide +kernel⟩ ⟨none, by decide +kernel⟩ ⟨none, by decide +kernel⟩
    ⟨none, by decide +kernel⟩ ⟨7⟩

end StaticEnvironmentPolicy

end SecurePubSub.Authority
