import Orchestract.Tenancy.PresetNames

/-!
# The agents of a preset

Any list of agents, with blank, repeated or clashing names: which of them are new, when all of the
new ones can be created, and what is left behind when one of them is refused.
-/

namespace Orchestract

set_option autoImplicit false

/-- The names of an organization's agents. -/
def agentNames (w : World) (organizationId : Nat) : List String :=
  (w.db.agents.select fun a => a.organizationId = organizationId).map fun a => a.name

/-- The names that are new: each once, in order, without those already known. -/
def newAgents (known : List String) : List (String × String) → List String
  | [] => []
  | agent :: agents =>
    if agent.1 ∈ known then newAgents known agents else agent.1 :: newAgents (agent.1 :: known) agents

/-- Agents of these names can be created one after the other. -/
def CanCreateAgents (w : World) (organizationId : Nat) (names : List String) : Prop :=
  ∃ o, w.db.organizations.get organizationId = some o ∧
    (∀ m, o.plan.limits.maxAgents = some m →
      (w.db.agents.select fun a => a.organizationId = organizationId).length + names.length ≤ m) ∧
    (∀ name ∈ names, Text.strip name ≠ "" ∧ ¬ NameTaken Agent w organizationId name) ∧
    (names.map Text.slugify).Nodup

theorem newAgents_congr {known known' : List String} (h : ∀ name, name ∈ known ↔ name ∈ known')
    (agents : List (String × String)) : newAgents known agents = newAgents known' agents := by
  induction agents generalizing known known' with
  | nil => rfl
  | cons agent agents ih =>
    have hcons : ∀ name, name ∈ agent.1 :: known ↔ name ∈ agent.1 :: known' := by
      intro name
      rw [List.mem_cons, List.mem_cons, h]
    unfold newAgents
    rw [ih h, ih hcons]
    simp only [h]

variable {w w' : World} {organizationId : Nat}

theorem createAgent_iff {name : String} {description : Option String} :
    (∃ p, AgentService.createAgent organizationId name description w = .ok p) ↔
      CanCreateAgents w organizationId [name] := by
  constructor
  · intro hcreated
    obtain ⟨⟨a, w'⟩, h⟩ := hcreated
    have hparts := h
    simp only [AgentService.createAgent, OrganizationService.get, Work.bind_ok_iff, Work.lift_ok_iff,
      require_ok_iff, lift_work_ok_iff] at hparts
    obtain ⟨o, _, ⟨ho, rfl⟩, _, _, _, draft, _, ⟨hdraft, rfl⟩, _⟩ := hparts
    obtain ⟨hname, _, _, _⟩ := agent_create_fields hdraft
    obtain ⟨hfree, hroom⟩ := (createAgent_ok_iff ho hname description).mp ⟨_, h⟩
    refine ⟨o, ho, fun m hm => hroom m hm, ?_, by simp⟩
    intro n hn
    rw [List.mem_singleton.mp hn]
    exact ⟨hname, hfree⟩
  · intro hpossible
    obtain ⟨o, ho, hcap, hall, _⟩ := hpossible
    obtain ⟨hname, hfree⟩ := hall name (List.mem_singleton_self name)
    exact (createAgent_ok_iff ho hname description).mpr ⟨hfree, fun m hm => hcap m hm⟩

/-- After the first agent is created, the others can be created if and only if all could before. -/
theorem canCreateAgents_created {name : String} {description : Option String} {a : Agent}
    (h : AgentService.createAgent organizationId name description w = .ok (a, w')) (names : List String) :
    CanCreateAgents w organizationId (name :: names) ↔
      names = [] ∨ CanCreateAgents w' organizationId names := by
  obtain ⟨o, ho, hcap, hall, _⟩ := createAgent_iff.mp ⟨_, h⟩
  obtain ⟨hname, hfree⟩ := hall name (List.mem_singleton_self name)
  obtain ⟨draft, t, ht, rfl, horg, hslug⟩ := createAgent_ok h
  have hlength := Table.length_select_insert (fun a => a.organizationId = organizationId) ht
  rw [if_pos (decide_eq_true horg)] at hlength
  have htaken : ∀ n, NameTaken Agent { w with db := { w.db with agents := t } } organizationId n ↔
      NameTaken Agent w organizationId n ∨ Text.slugify n = Text.slugify name := by
    intro n
    constructor
    · intro ⟨r, hr, hrorg, hrslug⟩
      rcases (Table.mem_insert_iff ht).mp hr with hr | rfl
      · exact Or.inl ⟨r, hr, hrorg, hrslug⟩
      · exact Or.inr (hrslug.symm.trans hslug)
    · intro htaken
      rcases htaken with ⟨r, hr, hrorg, hrslug⟩ | hsame
      · exact ⟨r, (Table.mem_insert_iff ht).mpr (Or.inl hr), hrorg, hrslug⟩
      · exact ⟨a, (Table.mem_insert_iff ht).mpr (Or.inr rfl), horg, hslug.trans hsame.symm⟩
  constructor
  · intro ⟨o', ho', hcap', hall', hnodup⟩
    refine Or.inr ⟨o', ho', ?_, ?_, ?_⟩
    · intro m hm
      have hle := hcap' m hm
      rw [List.length_cons] at hle
      change (t.select _).length + _ ≤ m
      omega
    · intro n hn
      obtain ⟨hnblank, hnfree⟩ := hall' n (List.mem_cons_of_mem name hn)
      refine ⟨hnblank, fun htak => ?_⟩
      rcases (htaken n).mp htak with htak | hsame
      · exact hnfree htak
      · rw [List.map_cons, List.nodup_cons] at hnodup
        exact hnodup.1 (List.mem_map.mpr ⟨n, hn, hsame⟩)
    · rw [List.map_cons, List.nodup_cons] at hnodup
      exact hnodup.2
  · intro hrest
    rcases hrest with rfl | ⟨o', ho', hcap', hall', hnodup⟩
    · exact createAgent_iff.mp ⟨_, h⟩
    · refine ⟨o', ho', ?_, ?_, ?_⟩
      · intro m hm
        have hle : (t.select fun a => a.organizationId = organizationId).length + names.length ≤ m :=
          hcap' m hm
        rw [List.length_cons]
        omega
      · intro n hn
        rcases List.mem_cons.mp hn with rfl | hn
        · exact ⟨hname, hfree⟩
        · obtain ⟨hnblank, hnfree⟩ := hall' n hn
          exact ⟨hnblank, fun htak => hnfree ((htaken n).mpr (Or.inl htak))⟩
      · rw [List.map_cons, List.nodup_cons]
        refine ⟨fun hmem => ?_, hnodup⟩
        obtain ⟨n, hn, hsame⟩ := List.mem_map.mp hmem
        exact (hall' n hn).2 ((htaken n).mpr (Or.inr hsame))

/-- No agent can be created when the first one cannot. -/
theorem canCreateAgents_first {name : String} {names : List String}
    (h : CanCreateAgents w organizationId (name :: names)) : CanCreateAgents w organizationId [name] := by
  obtain ⟨o, ho, hcap, hall, _⟩ := h
  refine ⟨o, ho, ?_, ?_, by simp⟩
  · intro m hm
    have hle := hcap m hm
    simp only [List.length_cons, List.length_nil] at hle ⊢
    omega
  · intro n hn
    rw [List.mem_singleton.mp hn]
    exact hall name List.mem_cons_self

/-! ## The loop over the agents -/

def PresetAgents.names (agents : PresetAgents) : List String := agents.known.map Prod.fst

theorem lookup_none_iff {known : List (String × Nat)} {name : String} :
    known.lookup name = none ↔ name ∉ known.map Prod.fst := by
  rw [List.lookup_eq_none_iff]
  constructor
  · intro h hmem
    obtain ⟨p, hp, rfl⟩ := List.mem_map.mp hmem
    have hne := h p hp
    rw [bne_self_eq_false] at hne
    cases hne
  · intro h p hp
    refine bne_iff_ne.mpr fun heq => h ?_
    rw [heq]
    exact List.mem_map_of_mem hp

theorem newAgents_known {found : PresetAgents} {agent : String × String} {id : Nat}
    (h : found.known.lookup agent.1 = some id) (agents : List (String × String)) :
    newAgents found.names (agent :: agents) = newAgents found.names agents := by
  have hmem : agent.1 ∈ found.names := by
    by_contra hnot
    rw [lookup_none_iff.mpr hnot] at h
    cases h
  rw [newAgents, if_pos hmem]

theorem newAgents_unknown {found : PresetAgents} {agent : String × String}
    (h : found.known.lookup agent.1 = none) (id : Nat) (ids : List (String × Nat))
    (agents : List (String × String)) : newAgents found.names (agent :: agents) =
      agent.1 :: newAgents (PresetAgents.names ⟨found.known ++ [(agent.1, id)], ids⟩) agents := by
  have hnot : agent.1 ∉ found.names := lookup_none_iff.mp h
  rw [newAgents, if_neg hnot]
  congr 1
  apply newAgents_congr
  intro name
  simp [PresetAgents.names, or_comm]

/-- The loop ends well if and only if there are no new agents or they can be created. -/
theorem ensureAgents_ok_iff (agents : List (String × String)) (found : PresetAgents) :
    (∃ found', (agents.foldlM (ensureAgent organizationId) found w).1 = .ok found') ↔
      newAgents found.names agents = [] ∨
        CanCreateAgents w organizationId (newAgents found.names agents) := by
  induction agents generalizing w found with
  | nil => exact iff_of_true ⟨found, rfl⟩ (Or.inl rfl)
  | cons agent agents ih =>
    rw [List.foldlM_cons, Program.bind_apply]
    cases hlookup : found.known.lookup agent.1 with
    | some id =>
      rw [ensureAgent_known hlookup, newAgents_known hlookup]
      exact ih _
    | none =>
      rw [ensureAgent_unknown hlookup]
      cases hcreate : AgentService.createAgent organizationId agent.1 (some agent.2) w with
      | error e =>
        refine iff_of_false (fun ⟨_, h⟩ => by cases h) fun h => ?_
        rw [newAgents_unknown hlookup 0 []] at h
        obtain ⟨p, hp⟩ := createAgent_iff.mpr (canCreateAgents_first (h.resolve_left nofun))
        cases hcreate.symm.trans hp
      | ok p =>
        obtain ⟨created, w'⟩ := p
        rw [newAgents_unknown hlookup created.id (found.ids ++ [(agent.1, created.id)]),
          canCreateAgents_created hcreate]
        exact (ih _).trans ⟨fun h => Or.inr h, fun h => h.resolve_left nofun⟩

/-- Without a new agent nothing is written; else the first one is refused and nothing is written, or
it stays. -/
theorem ensureAgents_first (agents : List (String × String)) (found : PresetAgents) :
    let run := agents.foldlM (ensureAgent organizationId) found w
    (newAgents found.names agents = [] ∧ ∃ found', run = (.ok found', w)) ∨
    ∃ name names, newAgents found.names agents = name :: names ∧
      ((¬ CanCreateAgents w organizationId [name] ∧ ∃ e, run = (.error e, w)) ∨
      (CanCreateAgents w organizationId [name] ∧
        ∃ a, run.2.db.agents.get w.db.agents.next = some a ∧ a.organizationId = organizationId)) := by
  intro run
  induction agents generalizing found with
  | nil => exact Or.inl ⟨rfl, found, rfl⟩
  | cons agent agents ih =>
    have hrun : run = (agent :: agents).foldlM (ensureAgent organizationId) found w := rfl
    rw [List.foldlM_cons, Program.bind_apply] at hrun
    cases hlookup : found.known.lookup agent.1 with
    | some id =>
      rw [ensureAgent_known hlookup] at hrun
      rw [newAgents_known hlookup, hrun]
      exact ih { found with ids := found.ids ++ [(agent.1, id)] }
    | none =>
      rw [ensureAgent_unknown hlookup] at hrun
      refine Or.inr ⟨agent.1, _, newAgents_unknown hlookup 0 [] agents, ?_⟩
      cases hcreate : AgentService.createAgent organizationId agent.1 (some agent.2) w with
      | error e =>
        rw [hcreate] at hrun
        refine Or.inl ⟨fun h => ?_, e, hrun⟩
        obtain ⟨p, hp⟩ := createAgent_iff.mpr h
        cases hcreate.symm.trans hp
      | ok p =>
        obtain ⟨created, w'⟩ := p
        rw [hcreate] at hrun
        obtain ⟨draft, t, ht, rfl, horg, _⟩ := createAgent_ok hcreate
        have hget : t.get w.db.agents.next = some created := by
          rw [Table.get_insert ht, if_pos rfl]
        obtain ⟨a, ha, hholder⟩ := (ensureAgents_holds organizationId agents _
          { w with db := { w.db with agents := t } }).agents _ created hget
        refine Or.inr ⟨createAgent_iff.mp ⟨_, hcreate⟩, a, ?_, ?_⟩
        · rw [hrun]
          exact ha
        · exact Eq.trans hholder horg

/-! ## The owners of the steps -/

/-- The name of the agent that an agent name of the preset stands for: the name as it is, when an
agent of the organization has it, else the name that a new agent gets. -/
def ownerName (existing : List String) (name : String) : String :=
  if name ∈ existing then name else Text.strip name

/-- The ids are those of the organization's agents of these names. -/
structure PresetAgents.Owned (agents : PresetAgents) (existing : List String) (organizationId : Nat)
    (w : World) : Prop where
  known : ∀ name ∈ existing, name ∈ agents.names
  owner : ∀ p, p ∈ agents.known ∨ p ∈ agents.ids → ∃ a, w.db.agents.get p.2 = some a ∧
    a.organizationId = organizationId ∧ a.name = ownerName existing p.1

theorem mem_agentNames_iff {name : String} : name ∈ agentNames w organizationId ↔
    name ∈ PresetAgents.names ⟨knownAgents w organizationId, []⟩ := by
  simp only [agentNames, PresetAgents.names, knownAgents, List.map_map, List.mem_map, Function.comp_apply,
    mem_orderByText]

theorem owned_knownAgents (w : World) (organizationId : Nat) :
    PresetAgents.Owned ⟨knownAgents w organizationId, []⟩ (agentNames w organizationId) organizationId w := by
  refine ⟨fun name hname => mem_agentNames_iff.mp hname, fun p hp => ?_⟩
  rcases hp with hp | hp
  · obtain ⟨a, ha, rfl⟩ := List.mem_map.mp hp
    have hselected := mem_orderByText.mp ha
    obtain ⟨hrow, horg⟩ := Table.mem_select_iff.mp hselected
    refine ⟨a, Table.get_eq_some_iff.mpr ⟨hrow, rfl⟩, of_decide_eq_true horg, ?_⟩
    exact (if_pos (List.mem_map_of_mem hselected)).symm
  · cases hp

theorem mem_of_lookup {known : List (String × Nat)} {name : String} {id : Nat}
    (h : known.lookup name = some id) : (name, id) ∈ known := by
  obtain ⟨before, after, heq, _⟩ := List.lookup_eq_some_iff.mp h
  rw [heq]
  exact List.mem_append_right _ List.mem_cons_self

theorem owned_known {found : PresetAgents} {existing : List String} {name : String} {id : Nat}
    (h : found.Owned existing organizationId w) (hlookup : found.known.lookup name = some id) :
    PresetAgents.Owned { found with ids := found.ids ++ [(name, id)] } existing organizationId w := by
  refine ⟨h.known, ?_⟩
  intro p hp
  rcases hp with hp | hp
  · exact h.owner p (Or.inl hp)
  · rcases List.mem_append.mp hp with hp | hp
    · exact h.owner p (Or.inr hp)
    · rw [List.mem_singleton.mp hp]
      exact h.owner (name, id) (Or.inl (mem_of_lookup hlookup))

theorem owned_created {found : PresetAgents} {existing : List String} {name : String}
    {description : Option String} {a : Agent} (h : found.Owned existing organizationId w)
    (hlookup : found.known.lookup name = none)
    (hcreate : AgentService.createAgent organizationId name description w = .ok (a, w')) :
    PresetAgents.Owned ⟨found.known ++ [(name, a.id)], found.ids ++ [(name, a.id)]⟩ existing
      organizationId w' := by
  have hnew : name ∉ existing := fun hmem => lookup_none_iff.mp hlookup (h.known name hmem)
  have hname : a.name = Text.strip name := by
    simp only [AgentService.createAgent, OrganizationService.get, Work.bind_ok_iff, Work.lift_ok_iff,
      require_ok_iff, lift_work_ok_iff] at hcreate
    obtain ⟨_, _, _, _, _, _, draft, _, ⟨hdraft, rfl⟩, hadd⟩ := hcreate
    obtain ⟨_, _, hdname, _⟩ := agent_create_fields hdraft
    obtain ⟨_, t, ht, _⟩ := (add_ok_iff draft a _ w').mp hadd
    obtain ⟨hrow, _, _⟩ := Table.insert_eq_some ht
    rw [hrow]
    exact hdname
  obtain ⟨draft, t, ht, rfl, horg, _⟩ := createAgent_ok hcreate
  have hold : ∀ p, p ∈ found.known ∨ p ∈ found.ids → ∃ b, t.get p.2 = some b ∧
      b.organizationId = organizationId ∧ b.name = ownerName existing p.1 := by
    intro p hp
    obtain ⟨b, hb, hborg, hbname⟩ := h.owner p hp
    exact ⟨b, Table.get_of_insert ht hb, hborg, hbname⟩
  have hadded : ∃ b, t.get a.id = some b ∧ b.organizationId = organizationId ∧
      b.name = ownerName existing name :=
    ⟨a, Table.get_inserted ht, horg, hname.trans (if_neg hnew).symm⟩
  refine ⟨?_, ?_⟩
  · intro n hn
    have hmem := h.known n hn
    simp only [PresetAgents.names, List.map_append, List.mem_append] at hmem ⊢
    exact Or.inl hmem
  · intro p hp
    rcases hp with hp | hp
    · rcases List.mem_append.mp hp with hp | hp
      · exact hold p (Or.inl hp)
      · rw [List.mem_singleton.mp hp]
        exact hadded
    · rcases List.mem_append.mp hp with hp | hp
      · exact hold p (Or.inr hp)
      · rw [List.mem_singleton.mp hp]
        exact hadded

theorem ensureAgents_owned {agents : List (String × String)} {found found' : PresetAgents}
    {existing : List String} (h : found.Owned existing organizationId w)
    (hrun : (agents.foldlM (ensureAgent organizationId) found w).1 = .ok found') :
    found'.Owned existing organizationId (agents.foldlM (ensureAgent organizationId) found w).2 := by
  induction agents generalizing w found with
  | nil =>
    obtain rfl := Except.ok.inj hrun
    exact h
  | cons agent agents ih =>
    rw [List.foldlM_cons, Program.bind_apply] at hrun ⊢
    cases hlookup : found.known.lookup agent.1 with
    | some id =>
      rw [ensureAgent_known hlookup] at hrun ⊢
      exact ih (owned_known h hlookup) hrun
    | none =>
      rw [ensureAgent_unknown hlookup] at hrun ⊢
      cases hcreate : AgentService.createAgent organizationId agent.1 (some agent.2) w with
      | error e =>
        rw [hcreate] at hrun
        cases hrun
      | ok p =>
        obtain ⟨created, w'⟩ := p
        rw [hcreate] at hrun
        exact ih (owned_created h hlookup hcreate) hrun

/-- Exactly the names of the preset's agents are found afterwards. -/
theorem ensureAgents_ids {agents : List (String × String)} {found found' : PresetAgents}
    (hrun : (agents.foldlM (ensureAgent organizationId) found w).1 = .ok found') :
    found'.ids.map Prod.fst = found.ids.map Prod.fst ++ agents.map Prod.fst := by
  induction agents generalizing w found with
  | nil =>
    obtain rfl := Except.ok.inj hrun
    rw [List.map_nil, List.append_nil]
  | cons agent agents ih =>
    rw [List.foldlM_cons, Program.bind_apply] at hrun
    rw [List.map_cons]
    cases hlookup : found.known.lookup agent.1 with
    | some id =>
      rw [ensureAgent_known hlookup] at hrun
      rw [ih hrun]
      simp
    | none =>
      rw [ensureAgent_unknown hlookup] at hrun
      cases hcreate : AgentService.createAgent organizationId agent.1 (some agent.2) w with
      | error e =>
        rw [hcreate] at hrun
        cases hrun
      | ok p =>
        obtain ⟨created, w'⟩ := p
        rw [hcreate] at hrun
        rw [ih hrun]
        simp

end Orchestract
