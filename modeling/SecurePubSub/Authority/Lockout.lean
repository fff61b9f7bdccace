import Mathlib.Data.List.Dedup
import SecurePubSub.Authority.PolicyApprovals
import SecurePubSub.Protocol.PayloadCanonical

namespace SecurePubSub.Authority

open SecurePubSub.Data SecurePubSub.Data.Fallible SecurePubSub.Protocol

/-! Whom an accepted policy locks out.

An agent must show every value approved for it, so it has an acceptable environment
exactly when its approvals form one: when they fit into an environment and the
allow-lists admit them. The builder checks an approval against the allow-list of
that moment only, and does not count.
-/

namespace AttributeValue

/-- What the constructors return: only byte strings are bounded by theirs. -/
def Constructed : AttributeValue → Prop
  | bool _ => True
  | i64 _ => True
  | bytes content => ofBytes content = .ok (.bytes content)

variable {value other : AttributeValue}

theorem Constructed.bounded (constructed : value.Constructed) :
    value.asRef.Bounded maxAttributeBytes := by
  cases value with
  | bool flag => trivial
  | i64 word => trivial
  | bytes content =>
      by_cases long : content.length > maxAttributeBytes
      · simp [Constructed, ofBytes, long] at constructed
      · exact Nat.not_lt.mp long

theorem asRef_inj : value.asRef = other.asRef ↔ value = other := by
  cases value <;> cases other <;> simp [asRef]

theorem matches_asRef {attributeType : AttributeType} :
    attributeType.matches value.asRef = true ↔ attributeType = value.attributeType := by
  cases attributeType <;> cases value <;> simp [AttributeType.matches, asRef, attributeType]

end AttributeValue

namespace StaticEnvironmentPolicy

/-! ## What a list of calls asks for -/

namespace BuilderCall

def Constructed : BuilderCall → Prop
  | allowValue _ value => value.Constructed
  | approve _ _ value => value.Constructed
  | allowSubscriberValue _ _ value => value.Constructed
  | _ => True

/-- The value that a call approves for an agent and an attribute. -/
def approval? (agent : AgentId) (attributeId : AttributeId) : BuilderCall → Option AttributeValue
  | approve other approved value =>
      if other = agent ∧ approved = attributeId then some value else none
  | _ => none

/-- The attribute that a call approves for an agent. -/
def approvedId? (agent : AgentId) : BuilderCall → Option AttributeId
  | approve other approved _ => if other = agent then some approved else none
  | _ => none

/-- The value that a call puts on the allow-list of an attribute. -/
def allowed? (attributeId : AttributeId) : BuilderCall → Option AttributeValue
  | allowValue listed value => if listed = attributeId then some value else none
  | _ => none

end BuilderCall

def approvedIds (calls : List BuilderCall) (agent : AgentId) : List AttributeId :=
  calls.filterMap (BuilderCall.approvedId? agent)

/-- A later approval replaces an earlier one. -/
def lastApproval (calls : List BuilderCall) (agent : AgentId) (attributeId : AttributeId) :
    Option AttributeValue :=
  (calls.filterMap (BuilderCall.approval? agent attributeId)).getLast?

def allowList (calls : List BuilderCall) (attributeId : AttributeId) : List AttributeValue :=
  calls.filterMap (BuilderCall.allowed? attributeId)

variable {calls : List BuilderCall} {agent : AgentId} {attributeId : AttributeId}
  {value : AttributeValue}

theorem lastApproval_append (call : BuilderCall) :
    lastApproval (calls ++ [call]) agent attributeId =
      (call.approval? agent attributeId).or (lastApproval calls agent attributeId) := by
  rw [lastApproval, List.filterMap_append]
  cases approved : call.approval? agent attributeId with
  | none => simp [approved, lastApproval]
  | some value => simp [approved]

theorem lastApproval_other {call : BuilderCall} (none : call.approval? agent attributeId = .none) :
    lastApproval (calls ++ [call]) agent attributeId = lastApproval calls agent attributeId := by
  rw [lastApproval_append, none, Option.none_or]

theorem allowList_append (call : BuilderCall) :
    allowList (calls ++ [call]) attributeId =
      allowList calls attributeId ++ (call.allowed? attributeId).toList := by
  rw [allowList, List.filterMap_append]
  cases listed : call.allowed? attributeId with
  | none => simp [allowList, listed]
  | some value => simp [allowList, listed]

theorem allowList_other {call : BuilderCall} (none : call.allowed? attributeId = .none) :
    allowList (calls ++ [call]) attributeId = allowList calls attributeId := by
  rw [allowList_append, none, Option.toList_none, List.append_nil]

theorem approval?_eq_some {call : BuilderCall} :
    call.approval? agent attributeId = some value ↔ call = .approve agent attributeId value := by
  cases call <;> simp [BuilderCall.approval?, and_assoc]

theorem mem_approvedIds :
    attributeId ∈ approvedIds calls agent ↔ ∃ value, .approve agent attributeId value ∈ calls := by
  rw [approvedIds, List.mem_filterMap]
  constructor
  · rintro ⟨call, member, approved⟩
    cases call with
    | approve other listed value =>
        by_cases own : other = agent
        · simp only [BuilderCall.approvedId?, if_pos own, Option.some.injEq] at approved
          subst own approved
          exact ⟨value, member⟩
        · simp [BuilderCall.approvedId?, own] at approved
    | _ => cases approved
  · rintro ⟨value, member⟩
    exact ⟨_, member, by simp [BuilderCall.approvedId?]⟩

theorem mem_of_lastApproval (approved : lastApproval calls agent attributeId = some value) :
    .approve agent attributeId value ∈ calls := by
  obtain ⟨call, member, same⟩ := List.mem_filterMap.mp (List.mem_of_getLast? approved)
  rwa [approval?_eq_some.mp same] at member

theorem lastApproval_of_mem (member : attributeId ∈ approvedIds calls agent) :
    ∃ value, lastApproval calls agent attributeId = some value := by
  obtain ⟨value, called⟩ := mem_approvedIds.mp member
  have inside : value ∈ calls.filterMap (BuilderCall.approval? agent attributeId) :=
    List.mem_filterMap.mpr ⟨_, called, approval?_eq_some.mpr rfl⟩
  have nonempty := List.ne_nil_of_mem inside
  exact ⟨_, List.getLast?_eq_getLast_of_ne_nil nonempty⟩

/-! ## What a policy built from them holds -/

variable {policy after : StaticEnvironmentPolicy}

/-- An approved value has the type of its attribute, which the CA issues. -/
def Typed (policy : StaticEnvironmentPolicy) (attributeId : AttributeId) (value : AttributeValue) :
    Prop :=
  ∃ rule, policy.rules.get attributeId = some rule ∧ rule.authority = .caIssued ∧
    rule.attributeType = value.attributeType

def allowedFor (policy : StaticEnvironmentPolicy) (attributeId : AttributeId) :
    List AttributeValue :=
  (policy.allowedValues.get attributeId).getD []

/-- The tables hold what the calls asked for. -/
structure Holds (policy : StaticEnvironmentPolicy) (calls : List BuilderCall) : Prop where
  approvals : ∀ agent attributeId,
    policy.approvals.get (toLex (agent, attributeId)) = lastApproval calls agent attributeId
  allowed : ∀ attributeId value,
    value ∈ policy.allowedFor attributeId ↔ value ∈ allowList calls attributeId
  typed : ∀ agent attributeId value, lastApproval calls agent attributeId = some value →
    policy.Typed attributeId value

theorem approve_typed (approved : policy.approve agent attributeId value = .ok after) :
    policy.Typed attributeId value := by
  obtain ⟨rule, known, approved⟩ := bind_eq_ok.mp approved
  obtain ⟨issued, approved⟩ := rejectIf_bind_eq_ok approved
  obtain ⟨⟨⟩, validated, _⟩ := bind_eq_ok.mp approved
  obtain ⟨same, found, validated⟩ := bind_eq_ok.mp validated
  obtain ⟨type, _⟩ := rejectIf_bind_eq_ok validated
  have found := ruleFor_eq_ok.mp found
  have known := ruleFor_eq_ok.mp known
  rw [known] at found
  cases found
  exact ⟨rule, known, not_not.mp issued, not_not.mp type⟩

/-- A call that names neither approvals nor allowed values changes neither. -/
theorem Holds.other {call : BuilderCall} (holds : policy.Holds calls)
    (approves : ∀ agent attributeId, call.approval? agent attributeId = none)
    (allows : ∀ attributeId, call.allowed? attributeId = none)
    (approvals : after.approvals = policy.approvals)
    (allowedValues : after.allowedValues = policy.allowedValues)
    (typed : ∀ {attributeId value}, policy.Typed attributeId value → after.Typed attributeId value) :
    after.Holds (calls ++ [call]) := by
  constructor
  · intro agent attributeId
    rw [approvals, lastApproval_other (approves agent attributeId)]
    exact holds.approvals agent attributeId
  · intro attributeId value
    rw [allowedFor, allowedValues, allowList_other (allows attributeId)]
    exact holds.allowed attributeId value
  · intro agent attributeId value approved
    rw [lastApproval_other (approves agent attributeId)] at approved
    exact typed (holds.typed agent attributeId value approved)

theorem Holds.registerRule {call : BuilderCall} {registered : AttributeId}
    {attributeType : AttributeType} {authority : AttributeAuthority} (holds : policy.Holds calls)
    (approves : ∀ agent attributeId, call.approval? agent attributeId = none)
    (allows : ∀ attributeId, call.allowed? attributeId = none)
    (done : policy.registerRule registered attributeType authority = .ok after) :
    after.Holds (calls ++ [call]) := by
  obtain ⟨⟨rules, rfl⟩, kept⟩ := registerRule_extends done
  apply @Holds.other _ _ { policy with rules } _ holds approves allows rfl rfl
  rintro attributeId value ⟨rule, known, typed⟩
  exact ⟨rule, kept known, typed⟩

theorem Holds.allowValue (holds : policy.Holds calls)
    (done : policy.allowValue attributeId value = .ok after) :
    after.Holds (calls ++ [.allowValue attributeId value]) := by
  have result := allowValue_eq_ok done
  subst result
  constructor
  · intro agent other
    rw [lastApproval_other rfl]
    exact holds.approvals agent other
  · intro other held
    have before := holds.allowed other held
    rw [allowList_append, List.mem_append, ← before]
    by_cases own : other = attributeId
    · subst own
      simp [allowedFor, BuilderCall.allowed?, mem_pushNew, eq_comm]
    · simp [allowedFor, BuilderCall.allowed?, own, Ne.symm own]
  · intro agent other held approved
    rw [lastApproval_other rfl] at approved
    exact holds.typed agent other held approved

theorem Holds.approve (holds : policy.Holds calls)
    (done : policy.approve agent attributeId value = .ok after) :
    after.Holds (calls ++ [.approve agent attributeId value]) := by
  have typed := approve_typed done
  obtain ⟨_, result⟩ := approve_eq_ok done
  subst result
  have latest : ∀ other listed,
      lastApproval (calls ++ [.approve agent attributeId value]) other listed =
        if toLex (other, listed) = toLex (agent, attributeId) then some value
        else lastApproval calls other listed := by
    intro other listed
    by_cases same : agent = other ∧ attributeId = listed
    · obtain ⟨rfl, rfl⟩ := same
      simp [lastApproval_append, BuilderCall.approval?]
    · have different : toLex (other, listed) ≠ toLex (agent, attributeId) := by
        intro equal
        obtain ⟨agents, ids⟩ := Prod.mk.inj (toLex_inj.mp equal)
        exact same ⟨agents.symm, ids.symm⟩
      rw [if_neg different]
      apply lastApproval_other
      exact if_neg same
  constructor
  · intro other listed
    rw [latest, SortedMap.get_insert]
    split
    · rfl
    · exact holds.approvals other listed
  · intro other held
    rw [allowList_other rfl]
    exact holds.allowed other held
  · intro other listed held approved
    rw [latest] at approved
    split at approved
    · rename_i same
      obtain ⟨_, ids⟩ := Prod.mk.inj (toLex_inj.mp same)
      cases approved
      rw [ids]
      exact typed
    · exact holds.typed other listed held approved

theorem Holds.run {call : BuilderCall} (holds : policy.Holds calls)
    (done : call.run policy = .ok after) : after.Holds (calls ++ [call]) := by
  cases call with
  | registerSelfDeclared => exact holds.registerRule (fun _ _ => rfl) (fun _ => rfl) done
  | registerCaIssued => exact holds.registerRule (fun _ _ => rfl) (fun _ => rfl) done
  | allowValue attributeId value => exact holds.allowValue done
  | approve agent attributeId value => exact holds.approve done
  | isolate typeId attributes =>
      obtain ⟨_, result⟩ := isolate_eq_ok done
      subst result
      exact holds.other (fun _ _ => rfl) (fun _ => rfl) rfl rfl (fun typed => typed)
  | allowSubscriberValue typeId attributeId value =>
      obtain ⟨_, result⟩ := allowSubscriberValue_eq_ok done
      subst result
      exact holds.other (fun _ _ => rfl) (fun _ => rfl) rfl rfl (fun typed => typed)

/-- A sequence of calls that all succeed leads to a policy that holds what they asked for. -/
theorem holds_of_build (built : calls.foldlM BuilderCall.run new = .ok policy) :
    policy.Holds calls := by
  have start : new.Holds [] := by
    constructor
    · exact fun _ _ => rfl
    · intro attributeId value
      exact Iff.rfl
    · intro agent attributeId value approved
      cases approved
  have step : ∀ {earlier : List BuilderCall} {call : BuilderCall}
      {before next : StaticEnvironmentPolicy}, before.Holds earlier →
      call.run before = .ok next → next.Holds (earlier ++ [call]) :=
    fun holds done => holds.run done
  exact @foldlM_induction _ _ _ BuilderCall.run (fun earlier before => before.Holds earlier)
    step calls new policy start built

/-! ## Environments that an agent can have -/

/-- A value that passes the allow-list of an attribute, which an empty one does not restrict. -/
def OnAllowList (policy : StaticEnvironmentPolicy) (attributeId : AttributeId)
    (held : ValueRef) : Prop :=
  policy.allowedFor attributeId = [] ∨
    ∃ value ∈ policy.allowedFor attributeId, held = value.asRef

theorem refused_iff {held : ValueRef} :
    (policy.allowedValues.get attributeId).any (fun allowed =>
        !allowed.isEmpty && !allowed.any (fun value => value.matchesRef held)) = true ↔
      ¬ policy.OnAllowList attributeId held := by
  rw [OnAllowList, allowedFor]
  cases policy.allowedValues.get attributeId with
  | none => simp
  | some allowed =>
      cases allowed with
      | nil => simp
      | cons first rest => simp [← AttributeValue.matchesRef_iff]

/-- A shown value that was approved passes when the allow-list admits it, and only then. -/
theorem checkAttribute_approved (typed : policy.Typed attributeId value)
    (approved : policy.approvals.get (toLex (agent, attributeId)) = some value) :
    policy.checkAttribute agent ⟨attributeId, value.asRef⟩ = .ok () ↔
      policy.OnAllowList attributeId value.asRef := by
  obtain ⟨rule, known, issued, type⟩ := typed
  have matched := AttributeValue.matches_asRef.mpr type
  have own := AttributeValue.matchesRef_iff.mpr (rfl : value.asRef = value.asRef)
  rw [checkAttribute, known]
  dsimp only
  rw [matched, rejectIf_pass _ (by simp), ok_bind, approved]
  by_cases listed : policy.OnAllowList attributeId value.asRef
  · rw [rejectIf_pass _ (mt refused_iff.mp (not_not.mpr listed)), ok_bind,
      rejectIf_pass _ (by simp [own])]
    exact ⟨fun _ => listed, fun _ => rfl⟩
  · rw [rejectIf_fail _ (refused_iff.mpr listed)]
    simp [listed]

theorem checkAttributes_ok {entries : List AttributeRef}
    (each : ∀ entry ∈ entries, policy.checkAttribute agent entry = .ok ()) :
    policy.checkAttributes agent entries = .ok () := by
  induction entries with
  | nil => rfl
  | cons head rest ih =>
      have later := ih (fun entry member => each entry (List.mem_cons_of_mem _ member))
      rw [checkAttributes, each head List.mem_cons_self, ok_bind]
      exact later

/-- Some environment that can be encoded is accepted from the agent. -/
def Admits (policy : StaticEnvironmentPolicy) (agent : AgentId) : Prop :=
  ∃ attributes input environment, encodeEnvironment maxPlaintextLen attributes = .ok input ∧
    parseOperation input = .ok (.setEnvironment environment) ∧
    ∀ current, policy.validateEnvironment agent current environment = .ok ()

/-- The approvals of an agent fit into an environment and their allow-lists admit them. -/
def Coherent (calls : List BuilderCall) (agent : AgentId) : Prop :=
  (approvedIds calls agent).dedup.length ≤ maxAttributes ∧
    ∀ attributeId value, lastApproval calls agent attributeId = some value →
      allowList calls attributeId = [] ∨ value ∈ allowList calls attributeId

theorem Holds.onAllowList_iff (holds : policy.Holds calls) :
    policy.OnAllowList attributeId value.asRef ↔
      allowList calls attributeId = [] ∨ value ∈ allowList calls attributeId := by
  have empty : policy.allowedFor attributeId = [] ↔ allowList calls attributeId = [] := by
    simp only [List.eq_nil_iff_forall_not_mem, holds.allowed]
  rw [OnAllowList, empty]
  simp only [AttributeValue.asRef_inj, exists_eq_right', holds.allowed]

/-- The environment of an admitted agent shows all its approvals. -/
theorem Holds.coherent (holds : policy.Holds calls) (admits : policy.Admits agent) :
    Coherent calls agent := by
  obtain ⟨attributes, input, environment, _, parsed, accepted⟩ := admits
  have shown : ∀ {attributeId value}, lastApproval calls agent attributeId = some value →
      environment.get attributeId = some value.asRef := by
    intro attributeId value approved
    obtain ⟨rule, known, issued, _⟩ := holds.typed agent attributeId value approved
    have exactly := Accepts.get_eq ⟨none, accepted none⟩ ⟨rule, known, issued⟩
    rw [exactly, approvedValue, holds.approvals, approved]
    rfl
  constructor
  · apply EnvironmentRef.Parsed.length_le ⟨input, parsed⟩ (List.nodup_dedup _)
    intro attributeId member
    obtain ⟨value, approved⟩ := lastApproval_of_mem (List.mem_dedup.mp member)
    rw [shown approved]
    rfl
  · intro attributeId value approved
    have member := EnvironmentRef.mem_iter_of_get (shown approved)
    obtain ⟨⟨⟩, checked, _⟩ := bind_eq_ok.mp (accepted none)
    have passed := checkAttributes_eq_ok checked _ member
    have found := (holds.approvals agent attributeId).trans approved
    have listed :=
      (checkAttribute_approved (holds.typed agent attributeId value approved) found).mp passed
    exact holds.onAllowList_iff.mp listed

section Showing

variable (calls agent)

/-- The value an agent shows for an attribute that was approved for it. -/
def shownValue (attributeId : AttributeId) : ValueRef :=
  ((lastApproval calls agent attributeId).map AttributeValue.asRef).getD (.bool false)

/-- The environment that shows exactly what was approved. -/
def approvedEnvironment : List AttributeRef :=
  (approvedIds calls agent).dedup.map (fun id => ⟨id, shownValue calls agent id⟩)

end Showing

theorem shownValue_eq (approved : lastApproval calls agent attributeId = some value) :
    shownValue calls agent attributeId = value.asRef := by
  rw [shownValue, approved]
  rfl

theorem mem_approvedEnvironment {entry : AttributeRef} :
    entry ∈ approvedEnvironment calls agent ↔
      ∃ value, lastApproval calls agent entry.id = some value ∧ entry.value = value.asRef := by
  rw [approvedEnvironment, List.mem_map]
  constructor
  · rintro ⟨id, member, rfl⟩
    obtain ⟨value, approved⟩ := lastApproval_of_mem (List.mem_dedup.mp member)
    exact ⟨value, approved, shownValue_eq approved⟩
  · rintro ⟨value, approved, shown⟩
    have member := mem_approvedIds.mpr ⟨value, mem_of_lastApproval approved⟩
    refine ⟨entry.id, List.mem_dedup.mpr member, ?_⟩
    rw [shownValue_eq approved, ← shown]

theorem bounded_approvedEnvironment (constructed : ∀ call ∈ calls, call.Constructed)
    (few : (approvedIds calls agent).dedup.length ≤ maxAttributes) :
    BoundedAttributes (approvedEnvironment calls agent) := by
  refine ⟨?_, ?_, ?_⟩
  · rwa [approvedEnvironment, List.length_map]
  · rw [approvedEnvironment, List.map_map, Function.comp_def, List.map_id']
    exact List.nodup_dedup _
  · intro entry member
    obtain ⟨value, approved, shown⟩ := mem_approvedEnvironment.mp member
    have made : value.Constructed := constructed _ (mem_of_lastApproval approved)
    rw [shown]
    exact made.bounded

/-- Coherent approvals make an environment that is accepted. -/
theorem Holds.admits (holds : policy.Holds calls)
    (constructed : ∀ call ∈ calls, call.Constructed) (coherent : Coherent calls agent) :
    policy.Admits agent := by
  obtain ⟨few, listed⟩ := coherent
  have bounded := bounded_approvedEnvironment constructed few
  have encoded := encodeEnvironment_ok bounded (environmentBytes_length bounded)
  have parsed := parseOperation_environment bounded.1 bounded.2.1 bounded.2.2
  refine ⟨_, _, _, encoded, parsed, fun current => ?_⟩
  have checked : policy.checkAttributes agent
      (environmentRef (approvedEnvironment calls agent)).iter = .ok () := by
    rw [iter_environmentRef bounded.1 bounded.2.2]
    apply checkAttributes_ok
    intro entry member
    obtain ⟨value, approved, shown⟩ := mem_approvedEnvironment.mp member
    have found := (holds.approvals agent entry.id).trans approved
    have admitted := holds.onAllowList_iff.mpr (listed entry.id value approved)
    have passed := (checkAttribute_approved (holds.typed agent entry.id value approved) found).mpr
      admitted
    rwa [← shown] at passed
  rw [validateEnvironment, checked, ok_bind]
  apply rejectIf_pass
  rw [List.any_eq_true]
  rintro ⟨approval, member, missing⟩
  obtain ⟨key, value⟩ := approval
  obtain ⟨owner, attributeId⟩ := key
  rw [missesApproval, Bool.and_eq_true, decide_eq_true_eq] at missing
  obtain ⟨own, absent⟩ := missing
  have own : owner = agent := own
  subst own
  have approved : lastApproval calls owner attributeId = some value :=
    (holds.approvals owner attributeId).symm.trans (SortedMap.get_eq_some.mpr member)
  have shown : (⟨attributeId, value.asRef⟩ : AttributeRef) ∈ approvedEnvironment calls owner :=
    mem_approvedEnvironment.mpr ⟨value, approved, rfl⟩
  have held := get_environmentRef_of_mem bounded.1 bounded.2.2 bounded.2.1 shown
  have own := AttributeValue.matchesRef_iff.mpr (rfl : value.asRef = value.asRef)
  change (!((environmentRef (approvedEnvironment calls owner)).get attributeId).any
    (fun candidate => value.matchesRef candidate)) = true at absent
  rw [held] at absent
  simp [own] at absent

/-- An agent can have an environment under a built policy exactly when the last values approved for
it are few enough for one environment and each is on the allow-list of its attribute, if any. -/
theorem admits_iff_coherent {policy : StaticEnvironmentPolicy} {calls : List BuilderCall}
    (built : calls.foldlM BuilderCall.run new = .ok policy)
    (constructed : ∀ call ∈ calls, call.Constructed) (agent : AgentId) :
    policy.Admits agent ↔
      (approvedIds calls agent).dedup.length ≤ maxAttributes ∧
        ∀ attributeId value, lastApproval calls agent attributeId = some value →
          allowList calls attributeId = [] ∨ value ∈ allowList calls attributeId := by
  have holds := holds_of_build built
  exact ⟨holds.coherent, holds.admits constructed⟩

/-! ## Policies that lock out -/

theorem locks_out (succeeds : (calls.foldlM BuilderCall.run new).isOk = true)
    (incoherent : ¬ Coherent calls agent) :
    ∃ policy, calls.foldlM BuilderCall.run new = .ok policy ∧ ¬ policy.Admits agent := by
  cases built : calls.foldlM BuilderCall.run new with
  | error error =>
      rw [built] at succeeds
      cases succeeds
  | ok policy => exact ⟨policy, rfl, mt (holds_of_build built).coherent incoherent⟩

def someAgent : AgentId := ⟨.fill 16 1⟩

/-- The allow-list is made after the approval, without the approved value. -/
def narrowedCalls : List BuilderCall :=
  [.registerCaIssued ⟨1⟩ .bool, .approve someAgent ⟨1⟩ (.bool true),
    .allowValue ⟨1⟩ (.bool false)]

/-- In the other order the approval is refused. -/
example : ([.registerCaIssued ⟨1⟩ .bool, .allowValue ⟨1⟩ (.bool false),
    .approve ⟨.fill 16 1⟩ ⟨1⟩ (.bool true)].foldlM BuilderCall.run new).isOk = false := by
  decide +kernel

/-- One approval more than an environment has room for. -/
def crowdedCalls : List BuilderCall :=
  (List.range 17).map (fun id => .registerCaIssued ⟨UInt16.ofNat id⟩ .bool) ++
    (List.range 17).map (fun id => .approve someAgent ⟨UInt16.ofNat id⟩ (.bool true))

theorem accepted_policies_lock_out :
    ((∀ call ∈ narrowedCalls, call.Constructed) ∧
      ∃ policy, narrowedCalls.foldlM BuilderCall.run new = .ok policy ∧
        ¬ policy.Admits someAgent) ∧
    ((∀ call ∈ crowdedCalls, call.Constructed) ∧
      ∃ policy, crowdedCalls.foldlM BuilderCall.run new = .ok policy ∧
        ¬ policy.Admits someAgent) := by
  refine ⟨⟨?_, locks_out (by decide +kernel) ?_⟩, ⟨?_, locks_out (by decide +kernel) ?_⟩⟩
  · simp [narrowedCalls, BuilderCall.Constructed, AttributeValue.Constructed]
  · rintro ⟨_, listed⟩
    have approved : lastApproval narrowedCalls someAgent ⟨1⟩ = some (.bool true) := by
      decide +kernel
    rcases listed _ _ approved with empty | member
    · exact absurd empty (by decide +kernel)
    · exact absurd member (by decide +kernel)
  · intro call member
    rcases List.mem_append.mp member with registered | approved
    · obtain ⟨id, _, rfl⟩ := List.mem_map.mp registered
      trivial
    · obtain ⟨id, _, rfl⟩ := List.mem_map.mp approved
      trivial
  · rintro ⟨few, _⟩
    exact absurd few (by decide +kernel)

/-- The same calls as above with the allow-list first, and with the approved value on it. -/
theorem admits_iff_coherent_aligned :
    ∃ policy, [.registerCaIssued ⟨1⟩ .bool, .allowValue ⟨1⟩ (.bool true),
        .approve someAgent ⟨1⟩ (.bool true)].foldlM BuilderCall.run new = .ok policy ∧
      policy.Admits someAgent := by
  have constructed : ∀ call ∈ [.registerCaIssued ⟨1⟩ .bool, .allowValue ⟨1⟩ (.bool true),
      .approve someAgent ⟨1⟩ (.bool true)], BuilderCall.Constructed call := by
    simp [BuilderCall.Constructed, AttributeValue.Constructed]
  refine ⟨_, rfl, (admits_iff_coherent rfl constructed someAgent).mpr ⟨by decide +kernel, ?_⟩⟩
  intro attributeId value approved
  have called := mem_of_lastApproval approved
  simp only [List.mem_cons, reduceCtorEq, BuilderCall.approve.injEq, List.not_mem_nil, or_false,
    false_or, true_and] at called
  obtain ⟨rfl, rfl⟩ := called
  exact .inr (by decide +kernel)

end StaticEnvironmentPolicy

end SecurePubSub.Authority
