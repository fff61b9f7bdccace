import SecurePubSub.Cad.PolicyConfig
import Mathlib.Data.List.Dedup

namespace SecurePubSub.Cad

open SecurePubSub.Data SecurePubSub.Data.Fallible SecurePubSub.Protocol SecurePubSub.Authority

/-! Which restrictions of a configuration the built policy enforces.

A later isolation entry of a type replaces an earlier one, and a requirement
without values makes no builder call at all.
-/

/-- The values of one requirement in the order of its loop, each with its key. -/
def SubscriberRequirement.entries (requirement : SubscriberRequirement) :
    List (RequirementKey × ConfiguredValue) :=
  requirement.values.map
    (fun configured => (toLex (⟨requirement.typeId⟩, ⟨requirement.attributeId⟩), configured))

namespace PolicyConfig

/-- The entries of `isolations` for one publication type, in order. -/
def isolationsOf (config : PolicyConfig) (typeId : TypeId) : List Isolation :=
  config.isolations.filter (fun isolation => (⟨isolation.typeId⟩ : TypeId) = typeId)

/-- The entries of `subscriber_requirements` for one publication type. -/
def requirementsOf (config : PolicyConfig) (typeId : TypeId) : List SubscriberRequirement :=
  config.subscriberRequirements.filter
    (fun requirement => (⟨requirement.typeId⟩ : TypeId) = typeId)

/-- Every value listed for a type and an attribute; repeated entries add up. -/
def listed (config : PolicyConfig) (typeId : TypeId) (attributeId : AttributeId) :
    List ConfiguredValue :=
  ((config.requirementsOf typeId).filter
    (fun requirement => (⟨requirement.attributeId⟩ : AttributeId) = attributeId)).flatMap
      SubscriberRequirement.values

/-- What the configuration asks of a delivery. -/
structure Permits (config : PolicyConfig) (hexDecode : String → Option Bytes) (typeId : TypeId)
    (publisher subscriber : EnvironmentRef) : Prop where
  isolated : ∀ isolation ∈ config.isolationsOf typeId, ∀ attributeId ∈ isolation.attributes,
    ∃ held, publisher.get ⟨attributeId⟩ = some held ∧ subscriber.get ⟨attributeId⟩ = some held
  admitted : ∀ requirement ∈ config.requirementsOf typeId,
    ∃ configured ∈ config.listed typeId ⟨requirement.attributeId⟩, ∃ admitted,
      value hexDecode configured = .ok admitted ∧
        subscriber.get ⟨requirement.attributeId⟩ = some admitted.asRef

/-- The attributes of the last isolation entry of a type. -/
def lastIsolation (config : PolicyConfig) (typeId : TypeId) : Option (List AttributeId) :=
  (config.isolationsOf typeId).getLast?.map (fun isolation => isolation.attributes.map AttributeId.mk)

/-- The attributes that the built policy looks at for a type. -/
def enforcedAttributes (config : PolicyConfig) (typeId : TypeId) : List AttributeId :=
  (config.lastIsolation typeId).getD [] ++
    ((config.requirementsOf typeId).filter (fun requirement => !requirement.values.isEmpty)).map
      (fun requirement => ⟨requirement.attributeId⟩)

/-- The last isolation entry of the type has the attributes of all, and every required
attribute has a value listed for it. -/
structure NothingDropped (config : PolicyConfig) (typeId : TypeId) : Prop where
  isolations : ∀ isolation ∈ config.isolationsOf typeId, ∀ attributeId ∈ isolation.attributes,
    (⟨attributeId⟩ : AttributeId) ∈ (config.lastIsolation typeId).getD []
  requirements : ∀ requirement ∈ config.requirementsOf typeId,
    config.listed typeId ⟨requirement.attributeId⟩ ≠ []

theorem mem_listed {config : PolicyConfig} {typeId : TypeId} {attributeId : AttributeId}
    {configured : ConfiguredValue} :
    configured ∈ config.listed typeId attributeId ↔
      (toLex (typeId, attributeId), configured) ∈
        config.subscriberRequirements.flatMap SubscriberRequirement.entries := by
  simp only [listed, requirementsOf, SubscriberRequirement.entries, List.mem_flatMap, List.mem_filter,
    List.mem_map, decide_eq_true_eq, Prod.mk.injEq, exists_eq_right_right, EmbeddingLike.apply_eq_iff_eq]
  constructor
  · rintro ⟨requirement, ⟨⟨member, sameType⟩, sameId⟩, held⟩
    exact ⟨requirement, member, held, sameType, sameId⟩
  · rintro ⟨requirement, member, held, sameType, sameId⟩
    exact ⟨requirement, ⟨⟨member, sameType⟩, sameId⟩, held⟩

theorem listed_ne_nil {config : PolicyConfig} {typeId : TypeId} {attributeId : AttributeId} :
    config.listed typeId attributeId ≠ [] ↔
      ∃ configured, configured ∈ config.listed typeId attributeId :=
  ⟨List.exists_mem_of_ne_nil _, fun ⟨_, member⟩ => List.ne_nil_of_mem member⟩

theorem lastIsolation_snoc (entries : List Isolation) (isolation : Isolation)
    (config : PolicyConfig) (typeId : TypeId) :
    ({ config with isolations := entries ++ [isolation] } : PolicyConfig).lastIsolation typeId =
      if typeId = ⟨isolation.typeId⟩ then some (isolation.attributes.map AttributeId.mk)
      else ({ config with isolations := entries } : PolicyConfig).lastIsolation typeId := by
  by_cases same : typeId = ⟨isolation.typeId⟩
  · simp [lastIsolation, isolationsOf, same]
  · simp [lastIsolation, isolationsOf, same, Ne.symm same]

end PolicyConfig

/-! ## The loops of `build_policy` -/

section HexDecode

variable {hexDecode : String → Option Bytes}

/-- No restriction has been added yet. -/
def Unrestricted (policy : StaticEnvironmentPolicy) : Prop :=
  policy.isolation = .empty ∧ policy.subscriberRequirements = .empty

theorem Unrestricted.allowConfigured {policy after : StaticEnvironmentPolicy}
    {attributeId : AttributeId} {allowed : ConfiguredValue} (unrestricted : Unrestricted policy)
    (done : allowConfigured hexDecode attributeId policy allowed = .ok after) :
    Unrestricted after := by
  obtain ⟨configured, _, done⟩ := bind_eq_ok.mp done
  have result := StaticEnvironmentPolicy.allowValue_eq_ok (fromPolicy_eq_ok.mp done)
  subst result
  exact unrestricted

theorem Unrestricted.registerRule {policy after : StaticEnvironmentPolicy}
    {attributeId : AttributeId} {attributeType : AttributeType} {authority : AttributeAuthority}
    (unrestricted : Unrestricted policy)
    (done : policy.registerRule attributeId attributeType authority = .ok after) :
    Unrestricted after := by
  obtain ⟨⟨rules, rfl⟩, _⟩ := StaticEnvironmentPolicy.registerRule_extends done
  exact unrestricted

theorem Unrestricted.registerAttribute {policy after : StaticEnvironmentPolicy}
    {rule : AttributeRule} (unrestricted : Unrestricted policy)
    (done : registerAttribute hexDecode policy rule = .ok after) : Unrestricted after := by
  obtain ⟨registered, first, later⟩ := bind_eq_ok.mp done
  have start : Unrestricted registered := by
    have first := fromPolicy_eq_ok.mp first
    cases authority : rule.authority with
    | selfDeclared => rw [authority] at first; exact unrestricted.registerRule first
    | caIssued => rw [authority] at first; exact unrestricted.registerRule first
  exact foldlM_preserves Unrestricted.allowConfigured start later

theorem Unrestricted.approveConfigured {policy after : StaticEnvironmentPolicy}
    {approval : Approval} (unrestricted : Unrestricted policy)
    (done : approveConfigured hexDecode policy approval = .ok after) : Unrestricted after := by
  obtain ⟨agent, _, done⟩ := bind_eq_ok.mp done
  obtain ⟨configured, _, done⟩ := bind_eq_ok.mp done
  obtain ⟨_, result⟩ := StaticEnvironmentPolicy.approve_eq_ok (fromPolicy_eq_ok.mp done)
  subst result
  exact unrestricted

theorem isolateConfigured_eq_ok {policy after : StaticEnvironmentPolicy} {isolation : Isolation}
    (done : isolateConfigured policy isolation = .ok after) :
    after = { policy with
      isolation := policy.isolation.insert ⟨isolation.typeId⟩ (isolation.attributes.map .mk) } :=
  (StaticEnvironmentPolicy.isolate_eq_ok (fromPolicy_eq_ok.mp done)).2

/-- Folding isolation entries leaves the last one of each type in force. -/
theorem isolation_of_fold {config : PolicyConfig} {policy after : StaticEnvironmentPolicy}
    (unrestricted : Unrestricted policy)
    (done : config.isolations.foldlM isolateConfigured policy = .ok after) :
    (∀ typeId, after.isolation.get typeId = config.lastIsolation typeId) ∧
      after.subscriberRequirements = .empty := by
  have result := @foldlM_induction _ _ _ isolateConfigured
    (fun entries policy =>
      (∀ typeId, policy.isolation.get typeId =
        ({ config with isolations := entries } : PolicyConfig).lastIsolation typeId) ∧
      policy.subscriberRequirements = .empty)
  refine result (fun held stepped => ?_) ⟨fun typeId => ?_, unrestricted.2⟩ done
  · have inserted := isolateConfigured_eq_ok stepped
    subst inserted
    refine ⟨fun typeId => ?_, held.2⟩
    rw [PolicyConfig.lastIsolation_snoc, ← held.1 typeId]
    exact SortedMap.get_insert _ _ _ _
  · rw [unrestricted.1]
    rfl

/-- The requirements of a policy are the values that the entries list, key by key. -/
structure AdmitsListed (hexDecode : String → Option Bytes)
    (entries : List (RequirementKey × ConfiguredValue)) (policy : StaticEnvironmentPolicy) :
    Prop where
  keys : ∀ key, (policy.subscriberRequirements.get key).isSome ↔ key ∈ entries.map Prod.fst
  values : ∀ key admitted, admitted ∈ (policy.subscriberRequirements.get key).getD [] ↔
    ∃ configured, (key, configured) ∈ entries ∧ value hexDecode configured = .ok admitted
  decoded : ∀ entry ∈ entries, ∃ admitted, value hexDecode entry.2 = .ok admitted

theorem AdmitsListed.admitConfigured {entries : List (RequirementKey × ConfiguredValue)}
    {policy after : StaticEnvironmentPolicy} {typeId : TypeId} {attributeId : AttributeId}
    {allowed : ConfiguredValue} (held : AdmitsListed hexDecode entries policy)
    (done : admitConfigured hexDecode typeId attributeId policy allowed = .ok after) :
    AdmitsListed hexDecode (entries ++ [(toLex (typeId, attributeId), allowed)]) after := by
  obtain ⟨configured, decoded, done⟩ := bind_eq_ok.mp done
  obtain ⟨_, result⟩ :=
    StaticEnvironmentPolicy.allowSubscriberValue_eq_ok (fromPolicy_eq_ok.mp done)
  subst result
  refine ⟨fun key => ?_, fun key admitted => ?_, fun entry member => ?_⟩
  · have before := held.keys key
    by_cases same : key = toLex (typeId, attributeId)
    · simp [StaticEnvironmentPolicy.requireValue, same]
    · simp [StaticEnvironmentPolicy.requireValue, same, before]
  · have before := held.values key admitted
    by_cases same : key = toLex (typeId, attributeId)
    · subst same
      simp only [StaticEnvironmentPolicy.requireValue, SortedMap.get_insert, if_true,
        Option.getD_some, StaticEnvironmentPolicy.mem_pushNew, before, List.mem_append,
        List.mem_singleton, Prod.mk.injEq, true_and, or_and_right, exists_or, exists_eq_left, decoded, Except.ok.injEq]
      exact or_congr_right eq_comm
    · simp [StaticEnvironmentPolicy.requireValue, same, before]
  · cases List.mem_append.mp member with
    | inl old => exact held.decoded entry old
    | inr last => exact List.mem_singleton.mp last ▸ ⟨configured, decoded⟩

theorem AdmitsListed.requireConfigured {entries : List (RequirementKey × ConfiguredValue)}
    {policy after : StaticEnvironmentPolicy} {requirement : SubscriberRequirement}
    (held : AdmitsListed hexDecode entries policy)
    (done : requireConfigured hexDecode policy requirement = .ok after) :
    AdmitsListed hexDecode (entries ++ requirement.entries) after := by
  have result := @foldlM_induction _ _ _
    (Cad.admitConfigured hexDecode ⟨requirement.typeId⟩ ⟨requirement.attributeId⟩)
    (fun values policy => AdmitsListed hexDecode (entries ++ values.map
      (fun configured => (toLex (⟨requirement.typeId⟩, ⟨requirement.attributeId⟩), configured)))
      policy)
  refine result (fun held stepped => ?_) (by simpa using held) done
  rw [List.map_append, ← List.append_assoc]
  exact held.admitConfigured stepped

theorem requirements_of_fold {requirements : List SubscriberRequirement}
    {policy after : StaticEnvironmentPolicy} (unrestricted : policy.subscriberRequirements = .empty)
    (done : requirements.foldlM (requireConfigured hexDecode) policy = .ok after) :
    AdmitsListed hexDecode (requirements.flatMap SubscriberRequirement.entries) after := by
  have result := @foldlM_induction _ _ _ (requireConfigured hexDecode)
    (fun requirements policy =>
      AdmitsListed hexDecode (requirements.flatMap SubscriberRequirement.entries) policy)
  refine result (fun held stepped => ?_) ⟨fun key => ?_, fun key admitted => ?_, ?_⟩ done
  · rw [List.flatMap_append, List.flatMap_singleton]
    exact held.requireConfigured stepped
  · simp [unrestricted]
  · simp [unrestricted]
  · simp

theorem isolation_requireConfigured {policy after : StaticEnvironmentPolicy}
    {requirement : SubscriberRequirement}
    (done : requireConfigured hexDecode policy requirement = .ok after) :
    after.isolation = policy.isolation := by
  refine @foldlM_preserves _ _ _ _ (fun state => state.isolation = policy.isolation) ?_ _ _ _
    rfl done
  intro allowed state next held stepped
  obtain ⟨configured, _, stepped⟩ := bind_eq_ok.mp stepped
  obtain ⟨_, result⟩ :=
    StaticEnvironmentPolicy.allowSubscriberValue_eq_ok (fromPolicy_eq_ok.mp stepped)
  subst result
  exact held

/-- What the built policy holds of the two kinds of restriction. -/
theorem buildPolicy_eq_ok {config : PolicyConfig} {policy : StaticEnvironmentPolicy}
    (built : buildPolicy hexDecode config = .ok policy) :
    (∀ typeId, policy.isolation.get typeId = config.lastIsolation typeId) ∧
      AdmitsListed hexDecode
        (config.subscriberRequirements.flatMap SubscriberRequirement.entries) policy := by
  obtain ⟨registered, first, built⟩ := bind_eq_ok.mp built
  obtain ⟨approved, second, built⟩ := bind_eq_ok.mp built
  obtain ⟨isolated, third, fourth⟩ := bind_eq_ok.mp built
  have unrestricted : Unrestricted approved :=
    foldlM_preserves Unrestricted.approveConfigured
      (foldlM_preserves Unrestricted.registerAttribute ⟨rfl, rfl⟩ first) second
  obtain ⟨isolation, none⟩ := isolation_of_fold unrestricted third
  have unchanged : policy.isolation = isolated.isolation :=
    @foldlM_preserves _ _ _ _ (fun state => state.isolation = isolated.isolation)
      (fun held stepped => (isolation_requireConfigured stepped).trans held) _ _ _ rfl fourth
  exact ⟨fun typeId => by rw [unchanged, isolation], requirements_of_fold none fourth⟩

/-! ## What is enforced -/

theorem bounded_of_value {configured : ConfiguredValue} {admitted : AttributeValue}
    (decoded : value hexDecode configured = .ok admitted) :
    admitted.asRef.Bounded maxAttributeBytes := by
  have short : ∀ {bytes : Bytes}, AttributeValue.ofBytes bytes = .ok admitted →
      admitted.asRef.Bounded maxAttributeBytes := by
    intro bytes within
    rw [AttributeValue.ofBytes] at within
    split at within
    · cases within
    · rename_i fits
      cases within
      exact Nat.not_lt.mp fits
  cases configured with
  | bool flag => cases decoded; trivial
  | i64 word => cases decoded; trivial
  | bytes text => exact short (fromPolicy_eq_ok.mp decoded)
  | hex text =>
      obtain ⟨bytes, _, decoded⟩ := bind_eq_ok.mp decoded
      exact short (fromPolicy_eq_ok.mp decoded)

section Built

variable {config : PolicyConfig} {policy : StaticEnvironmentPolicy}
    (built : buildPolicy hexDecode config = .ok policy)
include built

theorem requirement_iff_listed (typeId : TypeId) (attributeId : AttributeId) :
    (policy.subscriberRequirements.get (toLex (typeId, attributeId))).isSome ↔
      config.listed typeId attributeId ≠ [] := by
  rw [(buildPolicy_eq_ok built).2.keys, PolicyConfig.listed_ne_nil]
  simp only [PolicyConfig.mem_listed, List.mem_map, Prod.exists]
  constructor
  · rintro ⟨key, configured, member, same⟩
    exact ⟨configured, same ▸ member⟩
  · rintro ⟨configured, member⟩
    exact ⟨_, configured, member, rfl⟩

/-- The built policy never refuses what the configuration permits. -/
theorem allows_of_permits {typeId : TypeId} {publisher subscriber : EnvironmentRef}
    (permitted : config.Permits hexDecode typeId publisher subscriber) :
    policy.allowsDelivery typeId publisher subscriber = true := by
  obtain ⟨isolation, admits⟩ := buildPolicy_eq_ok built
  refine StaticEnvironmentPolicy.allowsDelivery_iff.mpr
    ⟨fun attributes found attributeId member => ?_, fun attributeId values found => ?_⟩
  · rw [isolation, PolicyConfig.lastIsolation, Option.map_eq_some_iff] at found
    obtain ⟨last, isLast, same⟩ := found
    subst same
    obtain ⟨id, inLast, same⟩ := List.mem_map.mp member
    subst same
    exact permitted.isolated last (List.mem_of_getLast? isLast) id inLast
  · have present : (policy.subscriberRequirements.get (toLex (typeId, attributeId))).isSome := by
      rw [found]
      rfl
    obtain ⟨configured, member⟩ :=
      List.exists_mem_of_ne_nil _ ((requirement_iff_listed built typeId attributeId).mp present)
    obtain ⟨requirement, required, _⟩ := List.mem_flatMap.mp member
    obtain ⟨required, sameId⟩ := List.mem_filter.mp required
    have sameId : (⟨requirement.attributeId⟩ : AttributeId) = attributeId := by simpa using sameId
    obtain ⟨chosen, chosenListed, admitted, decoded, held⟩ := permitted.admitted requirement required
    rw [sameId] at chosenListed held
    have inValues := (admits.values (toLex (typeId, attributeId)) admitted).mpr
      ⟨chosen, PolicyConfig.mem_listed.mp chosenListed, decoded⟩
    rw [found] at inValues
    exact ⟨admitted, inValues, held⟩

/-- Where nothing was dropped the built policy asks for all that the configuration does. -/
theorem permits_of_allows {typeId : TypeId} {publisher subscriber : EnvironmentRef}
    (complete : config.NothingDropped typeId)
    (allowed : policy.allowsDelivery typeId publisher subscriber = true) :
    config.Permits hexDecode typeId publisher subscriber := by
  obtain ⟨isolation, admits⟩ := buildPolicy_eq_ok built
  obtain ⟨isolated, required⟩ := StaticEnvironmentPolicy.allowsDelivery_iff.mp allowed
  refine ⟨fun entry member attributeId inside => ?_, fun requirement member => ?_⟩
  · have inLast := complete.isolations entry member attributeId inside
    cases last : config.lastIsolation typeId with
    | none => simp [last] at inLast
    | some attributes =>
        rw [last] at inLast
        exact isolated attributes ((isolation typeId).trans last) _ inLast
  · have present := (requirement_iff_listed built typeId ⟨requirement.attributeId⟩).mpr
      (complete.requirements requirement member)
    obtain ⟨values, found⟩ := Option.isSome_iff_exists.mp present
    obtain ⟨admitted, inValues, held⟩ := required _ values found
    obtain ⟨configured, listed, decoded⟩ :=
      (admits.values (toLex (typeId, ⟨requirement.attributeId⟩)) admitted).mp
        (by rw [found]; exact inValues)
    exact ⟨configured, PolicyConfig.mem_listed.mpr listed, admitted, decoded, held⟩

theorem mem_enforcedAttributes {typeId : TypeId} {attributeId : AttributeId} :
    attributeId ∈ config.enforcedAttributes typeId ↔
      attributeId ∈ (policy.isolation.get typeId).getD [] ∨
      (policy.subscriberRequirements.get (toLex (typeId, attributeId))).isSome := by
  rw [requirement_iff_listed built, (buildPolicy_eq_ok built).1, PolicyConfig.enforcedAttributes,
    List.mem_append, PolicyConfig.listed_ne_nil]
  refine or_congr_right ?_
  simp only [PolicyConfig.listed, List.mem_map, List.mem_filter, List.mem_flatMap, decide_eq_true_eq]
  constructor
  · rintro ⟨requirement, ⟨member, filled⟩, same⟩
    obtain ⟨configured, inside⟩ := List.exists_mem_of_ne_nil requirement.values
      (by simpa using filled)
    exact ⟨configured, requirement, ⟨member, same⟩, inside⟩
  · rintro ⟨configured, requirement, ⟨member, same⟩, inside⟩
    refine ⟨requirement, ⟨member, ?_⟩, same⟩
    simpa using List.ne_nil_of_mem inside

/-- A subscriber that the policy admits holds every enforced attribute. -/
theorem holds_of_allows {typeId : TypeId} {publisher subscriber : EnvironmentRef}
    (allowed : policy.allowsDelivery typeId publisher subscriber = true) {attributeId : AttributeId}
    (enforced : attributeId ∈ config.enforcedAttributes typeId) :
    (subscriber.get attributeId).isSome := by
  obtain ⟨isolated, required⟩ := StaticEnvironmentPolicy.allowsDelivery_iff.mp allowed
  cases (mem_enforcedAttributes built).mp enforced with
  | inl listed =>
      cases found : policy.isolation.get typeId with
      | none => simp [found] at listed
      | some attributes =>
          rw [found] at listed
          obtain ⟨held, _, shown⟩ := isolated attributes found attributeId listed
          rw [shown]
          rfl
  | inr present =>
      obtain ⟨values, found⟩ := Option.isSome_iff_exists.mp present
      obtain ⟨admitted, _, shown⟩ := required attributeId values found
      rw [shown]
      rfl

/-! ## What is dropped -/

/-- A value that satisfies the requirement on an attribute, or any value where there is none. -/
def admittedValue (policy : StaticEnvironmentPolicy) (typeId : TypeId)
    (attributeId : AttributeId) : ValueRef :=
  match policy.subscriberRequirements.get (toLex (typeId, attributeId)) with
  | some (first :: _) => first.asRef
  | _ => .bool true

theorem admittedValue_bounded (typeId : TypeId) (attributeId : AttributeId) :
    (admittedValue policy typeId attributeId).Bounded maxAttributeBytes := by
  rw [admittedValue]
  split
  · rename_i first rest found
    have inValues : first ∈
        (policy.subscriberRequirements.get (toLex (typeId, attributeId))).getD [] := by
      rw [found]
      exact List.mem_cons_self
    obtain ⟨configured, _, decoded⟩ := ((buildPolicy_eq_ok built).2.values _ _).mp inValues
    exact bounded_of_value decoded
  · trivial

theorem admittedValue_mem {typeId : TypeId} {attributeId : AttributeId}
    {values : List AttributeValue}
    (found : policy.subscriberRequirements.get (toLex (typeId, attributeId)) = some values) :
    ∃ admitted ∈ values, admittedValue policy typeId attributeId = admitted.asRef := by
  obtain ⟨_, admits⟩ := buildPolicy_eq_ok built
  have present : (policy.subscriberRequirements.get (toLex (typeId, attributeId))).isSome := by
    rw [found]
    rfl
  obtain ⟨configured, member⟩ :=
    PolicyConfig.listed_ne_nil.mp ((requirement_iff_listed built typeId attributeId).mp present)
  obtain ⟨admitted, decoded⟩ := admits.decoded _ (PolicyConfig.mem_listed.mp member)
  have inValues := (admits.values (toLex (typeId, attributeId)) admitted).mpr
    ⟨configured, PolicyConfig.mem_listed.mp member, decoded⟩
  rw [found, Option.getD_some] at inValues
  cases values with
  | nil => cases inValues
  | cons first rest => exact ⟨first, List.mem_cons_self, by rw [admittedValue, found]⟩

/-- Environments of the enforced attributes alone pass the policy when they can exist. -/
theorem allows_enforced {typeId : TypeId}
    (few : (config.enforcedAttributes typeId).dedup.length ≤ maxAttributes) :
    ∃ publisher subscriber : EnvironmentRef, publisher.Parsed ∧ subscriber.Parsed ∧
      policy.allowsDelivery typeId publisher subscriber = true ∧
      ∀ attributeId, attributeId ∉ (config.lastIsolation typeId).getD [] →
        publisher.get attributeId = none := by
  have bounded := admittedValue_bounded built typeId
  have isolation := (buildPolicy_eq_ok built).1 typeId
  have shown := get_environmentOf (List.nodup_dedup (config.enforcedAttributes typeId)) few bounded
  have fewer : ((config.lastIsolation typeId).getD []).dedup.length ≤ maxAttributes := by
    refine Nat.le_trans (List.subperm_of_subset (List.nodup_dedup _) ?_).length_le few
    exact fun _ member => List.mem_dedup.mpr (List.mem_append_left _ (List.mem_dedup.mp member))
  have showing := get_environmentOf (List.nodup_dedup ((config.lastIsolation typeId).getD [])) fewer
    bounded
  refine ⟨_, _, parsed_environmentOf (List.nodup_dedup _) fewer bounded,
    parsed_environmentOf (List.nodup_dedup _) few bounded, ?_, fun attributeId absent => ?_⟩
  · refine StaticEnvironmentPolicy.allowsDelivery_iff.mpr
      ⟨fun attributes found attributeId member => ?_, fun attributeId values found => ?_⟩
    · have inLast : attributeId ∈ (config.lastIsolation typeId).getD [] := by
        rw [← isolation, found]
        exact member
      have enforced : attributeId ∈ config.enforcedAttributes typeId :=
        List.mem_append_left _ inLast
      refine ⟨admittedValue policy typeId attributeId, ?_, ?_⟩
      · rw [showing, if_pos (List.mem_dedup.mpr inLast)]
      · rw [shown, if_pos (List.mem_dedup.mpr enforced)]
    · have enforced : attributeId ∈ config.enforcedAttributes typeId :=
        (mem_enforcedAttributes built).mpr (.inr (by rw [found]; rfl))
      obtain ⟨admitted, inValues, same⟩ := admittedValue_mem built found
      refine ⟨admitted, inValues, ?_⟩
      rw [shown, if_pos (List.mem_dedup.mpr enforced), same]
  · rw [showing, if_neg (fun member => absent (List.mem_dedup.mp member))]

end Built

end HexDecode

/-- The built policy enforces its configuration exactly where no restriction was dropped, or
where so many attributes are enforced that no environment can hold them. -/
theorem buildPolicy_enforces_iff (hexDecode : String → Option Bytes) {config : PolicyConfig}
    {policy : StaticEnvironmentPolicy} (built : buildPolicy hexDecode config = .ok policy) :
    (∀ typeId publisher subscriber, publisher.Parsed → subscriber.Parsed →
      (policy.allowsDelivery typeId publisher subscriber = true ↔
        config.Permits hexDecode typeId publisher subscriber)) ↔
    ∀ typeId, config.NothingDropped typeId ∨
      maxAttributes < (config.enforcedAttributes typeId).dedup.length := by
  constructor
  · intro exactly typeId
    by_cases many : maxAttributes < (config.enforcedAttributes typeId).dedup.length
    · exact .inr many
    · obtain ⟨publisher, subscriber, publisherParsed, subscriberParsed, allowed, bare⟩ :=
        allows_enforced built (Nat.not_lt.mp many)
      have permitted := (exactly typeId publisher subscriber publisherParsed subscriberParsed).mp
        allowed
      refine .inl ⟨fun isolation member attributeId inside => ?_, fun requirement member => ?_⟩
      · by_contra absent
        obtain ⟨held, shown, _⟩ := permitted.isolated isolation member attributeId inside
        rw [bare _ absent] at shown
        cases shown
      · obtain ⟨configured, listed, _⟩ := permitted.admitted requirement member
        exact List.ne_nil_of_mem listed
  · intro condition typeId publisher subscriber _ subscriberParsed
    refine ⟨fun allowed => ?_, allows_of_permits built⟩
    cases condition typeId with
    | inl complete => exact permits_of_allows built complete allowed
    | inr many =>
        have few := subscriberParsed.length_le (List.nodup_dedup _) (fun attributeId member =>
          holds_of_allows built allowed (List.mem_dedup.mp member))
        exact absurd many (Nat.not_lt.mpr few)

/-- Type 7 is isolated twice, type 8 requires an attribute without listing a value. -/
def droppingConfig : PolicyConfig where
  attributes := [⟨1, .bool, .caIssued, []⟩, ⟨2, .bool, .caIssued, []⟩]
  approvals := []
  isolations := [⟨7, [1]⟩, ⟨7, [2]⟩]
  subscriberRequirements := [⟨8, 1, []⟩]

theorem restriction_dropped :
    ¬ ∀ (hexDecode : String → Option Bytes) (config : PolicyConfig)
      (policy : StaticEnvironmentPolicy), buildPolicy hexDecode config = .ok policy →
      ∀ typeId publisher subscriber, publisher.Parsed → subscriber.Parsed →
        (policy.allowsDelivery typeId publisher subscriber = true ↔
          config.Permits hexDecode typeId publisher subscriber) := by
  intro claimed
  have second : (environmentRef [⟨⟨2⟩, .bool true⟩]).Parsed :=
    ⟨environmentBytes [⟨⟨2⟩, .bool true⟩], by decide +kernel⟩
  have computed : (buildPolicy (fun _ => none) droppingConfig).map
      (fun policy => (policy.allowsDelivery ⟨7⟩ (environmentRef [⟨⟨2⟩, .bool true⟩])
        (environmentRef [⟨⟨2⟩, .bool true⟩]))) = .ok true := by decide +kernel
  obtain ⟨policy, built, allowed⟩ := map_eq_ok.mp computed
  have permitted := (claimed _ _ _ built _ _ _ second second).mp allowed
  have first := permitted.isolated ⟨7, [1]⟩ (List.mem_filter.mpr ⟨List.mem_cons_self, rfl⟩)
    1 List.mem_cons_self
  obtain ⟨held, shown, _⟩ := first
  have missing : (environmentRef [⟨⟨2⟩, .bool true⟩]).get ⟨1⟩ = none := by decide +kernel
  rw [missing] at shown
  cases shown

/-- One attribute isolates type 7 and another one admits two values for it. -/
def sampleConfig : PolicyConfig where
  attributes := [⟨1, .bool, .caIssued, []⟩, ⟨2, .i64, .caIssued, [.i64 3, .i64 4]⟩]
  approvals := []
  isolations := [⟨7, [1]⟩]
  subscriberRequirements := [⟨7, 2, [.i64 3]⟩, ⟨7, 2, [.i64 4]⟩]

theorem sample_enforces : ∃ policy, buildPolicy (fun _ => none) sampleConfig = .ok policy ∧
    ((∀ typeId publisher subscriber, publisher.Parsed → subscriber.Parsed →
      (policy.allowsDelivery typeId publisher subscriber = true ↔
        sampleConfig.Permits (fun _ => none) typeId publisher subscriber)) ↔
    ∀ typeId, sampleConfig.NothingDropped typeId ∨
      maxAttributes < (sampleConfig.enforcedAttributes typeId).dedup.length) := by
  have accepted : (buildPolicy (fun _ => none) sampleConfig).map (fun _ => ()) = .ok () := by
    decide +kernel
  obtain ⟨policy, built, _⟩ := map_eq_ok.mp accepted
  exact ⟨policy, built, buildPolicy_enforces_iff (fun _ => none) built⟩

end SecurePubSub.Cad
