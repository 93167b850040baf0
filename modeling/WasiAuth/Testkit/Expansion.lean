import WasiAuth.Testkit.Decisions

/-! # Expansions of the evaluator

Over rewrites without intersections, exclusions and conditions, an expansion makes every call a check of any subject
makes, and more: it has no memo and does not stop at the first match. `Tracks` compares the two call by call. The check
is never ahead of the expansion (`Behind`): it has entered at most as many keys and has the same calls open. So it meets
no limit and no cycle that the expansion does not meet.
-/

namespace WasiAuth.Testkit

open Relational

/-- The subject stands somewhere in the tree. -/
inductive ExpansionNode.Mentions (subject : SubjectRef) : ExpansionNode → Prop
  | here {object relation rewrite subjects children visited} (h : subject ∈ subjects) :
    Mentions subject (.mk object relation rewrite subjects children visited)
  | child {object relation rewrite subjects children visited} {node : ExpansionNode} (hmem : node ∈ children)
    (h : node.Mentions subject) : Mentions subject (.mk object relation rewrite subjects children visited)

theorem ExpansionNode.mentions_mk {subject : SubjectRef} {object : ObjectRef} {relation : Relation} {rewrite : String}
    {subjects : List SubjectRef} {children : List ExpansionNode} {visited : Nat} :
    (ExpansionNode.mk object relation rewrite subjects children visited).Mentions subject ↔
      subject ∈ subjects ∨ ∃ node ∈ children, node.Mentions subject := by
  constructor
  · rintro (h | ⟨hmem, h⟩)
    · exact .inl h
    · exact .inr ⟨_, hmem, h⟩
  · rintro (h | ⟨node, hmem, h⟩)
    · exact .here h
    · exact .child hmem h

/-- Built from `Direct`, `ComputedUserset`, `TupleToUserset` and `Union`. -/
inductive Rewrite.Positive : Rewrite → Prop
  | direct : Positive .direct
  | computedUserset (relation) : Positive (.computedUserset relation)
  | tupleToUserset (tuplesetRelation computedRelation) : Positive (.tupleToUserset tuplesetRelation computedRelation)
  | union {children} (h : ∀ child ∈ children, Positive child) : Positive (.union children)

/-- No relation excludes anything. -/
def AuthorizationModel.Positive (model : AuthorizationModel) : Prop :=
  ∀ type ∈ model.types, ∀ relation ∈ type.2.relations, relation.2.rewrite.Positive

namespace Evaluator

variable {e : Evaluator} {context : AuthzContext} {subject : SubjectRef}

/-! ## The two states -/

structure Grows (before after : EvaluationState) : Prop where
  visited : before.visited ≤ after.visited
  stack : ∀ key, key ∈ after.stack ↔ key ∈ before.stack

theorem Grows.refl (t : EvaluationState) : Grows t t := ⟨le_rfl, fun _ => Iff.rfl⟩

theorem Grows.trans {t u v : EvaluationState} (h : Grows t u) (h' : Grows u v) : Grows t v :=
  ⟨h.visited.trans h'.visited, fun key => (h'.stack key).trans (h.stack key)⟩

/-- The check is not further than the expansion. -/
structure Behind (subject : SubjectRef) (s t : EvaluationState) : Prop where
  visited : s.visited ≤ t.visited
  stack : ∀ relation object, (⟨subject, relation, object⟩ : EvalKey) ∈ s.stack ↔
    (⟨⟨"__expand__:subject"⟩, relation, object⟩ : EvalKey) ∈ t.stack

theorem Behind.grows {s t t' : EvaluationState} (h : Behind subject s t) (hgrows : Grows t t') : Behind subject s t' :=
  ⟨h.visited.trans hgrows.visited, fun r o => (h.stack r o).trans (hgrows.stack _).symm⟩

theorem mem_leave {state : EvaluationState} {key k : EvalKey} :
    k ∈ (state.leave key).stack ↔ k ∈ state.stack ∧ k ≠ key := by
  simp [EvaluationState.leave]

/-- The expansion `y` ends in a larger state, the plain evaluation ends with whether the result mentions the subject,
and the check `x` ends no further ahead. -/
def Tracks {α : Type} (subject : SubjectRef) (M : α → Prop) (y : Evaluation α) (x : Evaluation Bool)
    (p : Fuelled Bool) : Prop :=
  ∀ t a t', y.run t = (.ok a, t') → Grows t t' ∧ (∃ b, Settles p b ∧ (b = true ↔ M a)) ∧
    ∀ s, Behind subject s t → ∃ b s', x.run s = (.ok b, s') ∧ Behind subject s' t'

section Tracks
variable {α β γ : Type} {M : α → Prop} {M' : β → Prop} {y : Evaluation α} {z : Evaluation β} {x : Evaluation Bool}
  {p : Fuelled Bool}

theorem tracks_pure {a : α} {b : Bool} (h : b = true ↔ M a) : Tracks subject M (pure a) (pure b) (pure b) := by
  intro t a' t' hrun
  cases hrun
  exact ⟨Grows.refl t, ⟨b, Settles.pure b, h⟩, fun s hs => ⟨b, s, rfl, hs⟩⟩

/-- The expansion goes on after a match, the check and the plain evaluation stop there. -/
theorem Tracks.or {f : α → β → γ} {N : γ → Prop} {k : Bool → Evaluation Bool} {q : Bool → Fuelled Bool}
    (hy : Tracks subject M y x p) (hz : Tracks subject M' z (k false) (q false)) (hk : k true = pure true)
    (hq : q true = pure true) (hf : ∀ a b, N (f a b) ↔ M a ∨ M' b) :
    Tracks subject N (do let a ← y; let b ← z; pure (f a b)) (x >>= k) (p >>= q) := by
  intro t c t' hrun
  obtain ⟨a, u, hrunY, hrun⟩ := Evaluation.run_bind_eq_ok.1 hrun
  obtain ⟨b, v, hrunZ, hrun⟩ := Evaluation.run_bind_eq_ok.1 hrun
  cases hrun
  obtain ⟨hgrowsY, ⟨first, hsettlesY, hfirst⟩, hcheckY⟩ := hy t a u hrunY
  obtain ⟨hgrowsZ, ⟨second, hsettlesZ, hsecond⟩, hcheckZ⟩ := hz u b t' hrunZ
  refine ⟨hgrowsY.trans hgrowsZ, ?_, fun s hs => ?_⟩
  · cases first with
    | true => exact ⟨true, hsettlesY.bind (hq ▸ Settles.pure true), by simp [hf, hfirst.1 rfl]⟩
    | false =>
      have hnot : ¬ M a := fun h => Bool.noConfusion (hfirst.2 h)
      exact ⟨second, hsettlesY.bind hsettlesZ, by rw [hsecond, hf]; tauto⟩
  · obtain ⟨found, s', hrunX, hs'⟩ := hcheckY s hs
    cases found with
    | true => exact ⟨true, s', Evaluation.run_bind_eq_ok.2 ⟨true, s', hrunX, by rw [hk]; rfl⟩, hs'.grows hgrowsZ⟩
    | false =>
      obtain ⟨b, s'', hrunK, hs''⟩ := hcheckZ s' hs'
      exact ⟨b, s'', Evaluation.run_bind_eq_ok.2 ⟨false, s', hrunX, hrunK⟩, hs''⟩

theorem Tracks.node {relation : Relation} {object : ObjectRef} {rewrite : Rewrite} (children : α → List ExpansionNode)
    (hy : Tracks subject M y x p) (hM : ∀ a, M a ↔ ∃ node ∈ children a, node.Mentions subject) :
    Tracks subject (ExpansionNode.Mentions subject)
      (y >>= fun a => expansionNode relation object rewrite [] (children a)) x p := by
  intro t node t' hrun
  obtain ⟨a, u, hrunY, hrun⟩ := Evaluation.run_bind_eq_ok.1 hrun
  cases hrun
  obtain ⟨hgrows, ⟨b, hsettles, hb⟩, hcheck⟩ := hy t a t' hrunY
  refine ⟨hgrows, ⟨b, hsettles, ?_⟩, hcheck⟩
  rw [hb, hM, ExpansionNode.mentions_mk]
  simp

theorem tracks_mapM {g : α → Evaluation ExpansionNode} {f : α → Evaluation Bool} {h : α → Fuelled Bool} :
    ∀ {l : List α}, (∀ a ∈ l, Tracks subject (ExpansionNode.Mentions subject) (g a) (f a) (h a)) →
      Tracks subject (fun nodes => ∃ node ∈ nodes, node.Mentions subject) (l.mapM g) (l.anyM f) (l.anyM h)
  | [], _ => tracks_pure (by simp)
  | a :: l, hl => by
    rw [List.mapM_cons]
    simp only [List.anyM]
    refine Tracks.or (hl a List.mem_cons_self) (tracks_mapM fun a ha => hl a (List.mem_cons_of_mem _ ha)) rfl rfl ?_
    simp

end Tracks

/-! ## The rewrites -/

def TrackedCalls (e : Evaluator) (context : AuthzContext) (subject : SubjectRef)
    (expandCall : Relation → ObjectRef → Nat → Evaluation ExpansionNode)
    (checkCall : Relation → ObjectRef → Nat → Evaluation Bool) : Prop :=
  ∀ relation object depth, Tracks subject (ExpansionNode.Mentions subject) (expandCall relation object depth)
    (checkCall relation object depth) (e.evaluateCall context subject relation object depth)

section Rewrites
variable {expandCall : Relation → ObjectRef → Nat → Evaluation ExpansionNode}
  {checkCall : Relation → ObjectRef → Nat → Evaluation Bool} {relation : Relation} {object : ObjectRef}

theorem mem_subjects_iff : subject ∈ btreeSet ((e.tuplesOf context relation object).map RelationshipTuple.subject) ↔
    e.directMatch context subject relation object = true := by
  rw [mem_btreeSet, List.mem_map, directMatch_iff]

mutual

theorem expandRewrite_tracks (hcalls : e.TrackedCalls context subject expandCall checkCall) :
    ∀ {rewrite : Rewrite}, rewrite.Positive → ∀ depth,
      Tracks subject (ExpansionNode.Mentions subject)
        (e.expandRewrite context expandCall relation object rewrite depth)
        (e.evalRewrite context checkCall subject relation object rewrite depth)
        (e.evalRewrite context (e.evaluateCall context subject) subject relation object rewrite depth)
  | .direct, _, depth => by
    rw [expandRewrite, evalRewrite, evalRewrite]
    intro t node t' hrun
    cases hrun
    refine ⟨Grows.refl t, ⟨_, Settles.pure _, ?_⟩, fun s hs => ⟨_, s, rfl, hs⟩⟩
    rw [ExpansionNode.mentions_mk, mem_subjects_iff]
    simp
  | .computedUserset r, _, depth => by
    rw [expandRewrite, evalRewrite, evalRewrite]
    exact (hcalls r object (depth + 1)).node (fun node => [node]) (by simp)
  | .tupleToUserset _ r, _, depth => by
    rw [expandRewrite, evalRewrite, evalRewrite]
    refine (tracks_mapM fun tuple _ => ?_).node id fun _ => Iff.rfl
    cases ObjectRef.new tuple.subject.value with
    | error error => exact fun t a t' hrun => by cases hrun
    | ok related => exact hcalls r related (depth + 1)
  | .union children, h, depth => by
    rw [expandRewrite, evalRewrite, evalRewrite]
    exact (expandChildren_tracks hcalls children (by cases h with | union h => exact h) (depth + 1)).node id
      fun _ => Iff.rfl

theorem expandChildren_tracks (hcalls : e.TrackedCalls context subject expandCall checkCall) :
    ∀ (children : List Rewrite), (∀ child ∈ children, child.Positive) → ∀ depth,
      Tracks subject (fun nodes => ∃ node ∈ nodes, node.Mentions subject)
        (e.expandChildren context expandCall relation object children depth)
        (e.evalUnion context checkCall subject relation object children depth)
        (e.evalUnion context (e.evaluateCall context subject) subject relation object children depth)
  | [], _, depth => by
    rw [expandChildren, evalUnion, evalUnion]
    exact tracks_pure (by simp)
  | child :: children, h, depth => by
    rw [expandChildren, evalUnion, evalUnion]
    refine Tracks.or (expandRewrite_tracks hcalls (h child List.mem_cons_self) depth)
      (k := fun allowed => if allowed = true then pure true else _)
      (q := fun allowed => if allowed = true then pure true else _)
      (expandChildren_tracks hcalls children (fun c hc => h c (List.mem_cons_of_mem _ hc)) depth) rfl rfl ?_
    simp

end

end Rewrites

/-! ## The calls -/

theorem positive_of_relationDefinition (hmodel : e.model.Positive) {object : ObjectRef} {relation : Relation}
    {definition : RelationDefinition} (h : e.relationDefinition object relation = .ok definition) :
    definition.rewrite.Positive := by
  obtain ⟨type, htype, hdefinition⟩ := bind_eq_ok.1 h
  obtain ⟨l, r, htypes, -⟩ := List.lookup_eq_some_iff.1 (okOr_eq_ok.1 htype)
  obtain ⟨l', r', hrelations, -⟩ := List.lookup_eq_some_iff.1 (okOr_eq_ok.1 hdefinition)
  exact hmodel (object.typeName, type) (by simp [htypes]) (relation.value, definition) (by simp [hrelations])

theorem expandStep_eq_ok {expandCall : Relation → ObjectRef → Nat → Evaluation ExpansionNode} {relation : Relation}
    {object : ObjectRef} {depth : Nat} {t t' : EvaluationState} {node : ExpansionNode}
    (h : (e.expandStep context expandCall relation object depth).run t = (.ok node, t')) :
    ∃ entered definition left, e.enter ⟨⟨"__expand__:subject"⟩, relation, object⟩ t depth = .ok entered ∧
      e.relationDefinition object relation = .ok definition ∧
      (e.expandRewrite context expandCall relation object definition.rewrite depth).run entered = (.ok node, left) ∧
      left.leave ⟨⟨"__expand__:subject"⟩, relation, object⟩ = t' := by
  simp only [expandStep, ExceptT.run] at h
  cases henter : e.enter ⟨⟨"__expand__:subject"⟩, relation, object⟩ t depth with
  | error error =>
    rw [henter] at h
    cases h
  | ok entered =>
    rw [henter] at h
    cases hdefinition : e.relationDefinition object relation with
    | error error =>
      rw [hdefinition] at h
      cases h
    | ok definition =>
      rw [hdefinition] at h
      obtain ⟨hnode, hstate⟩ := Prod.mk.inj h
      exact ⟨entered, definition, _, rfl, rfl, Prod.ext hnode rfl, hstate⟩

theorem expandStep_tracks (hmodel : e.model.Positive)
    {expandCall : Relation → ObjectRef → Nat → Evaluation ExpansionNode}
    {checkCall : Relation → ObjectRef → Nat → Evaluation Bool}
    (hcalls : e.TrackedCalls context subject expandCall checkCall) :
    e.TrackedCalls context subject (e.expandStep context expandCall) (e.checkStep context subject checkCall) := by
  intro relation object depth t node t' hrun
  obtain ⟨entered, definition, left, henter, hdefinition, hrewrite, rfl⟩ := expandStep_eq_ok hrun
  obtain ⟨hdepth, hnodes, hcycle, rfl⟩ := enter_eq_ok.1 henter
  obtain ⟨hgrows, ⟨b, hsettles, hb⟩, hcheck⟩ := expandRewrite_tracks hcalls
    (positive_of_relationDefinition hmodel hdefinition) depth _ _ _ hrewrite
  have hgrown : Grows t (left.leave ⟨⟨"__expand__:subject"⟩, relation, object⟩) := by
    refine ⟨(Nat.le_succ _).trans hgrows.visited, fun key => ?_⟩
    rw [mem_leave, hgrows.stack, List.mem_cons]
    constructor
    · rintro ⟨rfl | hmem, hne⟩
      · exact absurd rfl hne
      · exact hmem
    · intro hmem
      exact ⟨.inr hmem, fun heq => hcycle (heq ▸ hmem)⟩
  have hends : Settles (e.evalDefinition context (e.evaluateCall context subject) subject relation object depth) b := by
    simpa only [evalDefinition, hdefinition] using hsettles
  refine ⟨hgrown, ⟨b, terminates_of_settles hends, hb⟩, fun s hs => ?_⟩
  cases hmemo : s.memo.lookup (⟨subject, relation, object⟩ : EvalKey) with
  | some allowed => exact ⟨allowed, s, checkStep_hit hmemo, hs.grows hgrown⟩
  | none =>
    have hsenter := enter_eq_ok.2 ⟨hdepth, hs.visited.trans_lt hnodes, mt (hs.stack relation object).1 hcycle, rfl⟩
    have hbehind : Behind subject { s with visited := s.visited + 1, stack := ⟨subject, relation, object⟩ :: s.stack }
        { t with visited := t.visited + 1, stack := ⟨⟨"__expand__:subject"⟩, relation, object⟩ :: t.stack } := by
      refine ⟨Nat.succ_le_succ hs.visited, fun r o => ?_⟩
      simp only [List.mem_cons, hs.stack, EvalKey.mk.injEq, true_and]
    obtain ⟨allowed, s', hrun', hs'⟩ := hcheck _ hbehind
    have hdef : (e.evalDefinition context checkCall subject relation object depth).run
        { s with visited := s.visited + 1, stack := ⟨subject, relation, object⟩ :: s.stack } = (.ok allowed, s') := by
      simpa only [evalDefinition, hdefinition] using hrun'
    rw [checkStep_entered hmemo hsenter, hdef]
    refine ⟨allowed, _, rfl, hs'.visited, fun r o => ?_⟩
    show _ ∈ (s'.leave _).stack ↔ _
    simp only [mem_leave, hs'.stack, ne_eq, EvalKey.mk.injEq, true_and]

theorem expandWithin_tracks (hmodel : e.model.Positive) :
    ∀ levels, e.TrackedCalls context subject (e.expandWithin context levels) (e.checkWithin context subject levels)
  | 0 => expandStep_tracks hmodel fun _ _ _ _ _ _ h => by cases h
  | levels + 1 => expandStep_tracks hmodel (expandWithin_tracks hmodel levels)

/-- Where the expansion succeeds, so does the check of every subject, and it allows those the expansion mentions. -/
theorem check_of_expand (e : Evaluator) (hmodel : e.model.Positive) (relation : Relation) (object : ObjectRef)
    (context : AuthzContext) {node : ExpansionNode} (h : e.expand relation object context = .ok node)
    (subject : SubjectRef) :
    ∃ decision, e.check subject relation object context = .ok decision ∧
      (decision.allowed = true ↔ node.Mentions subject) := by
  obtain ⟨_, hensure, hexpand⟩ := bind_eq_ok.1 h
  obtain ⟨definition, hdefinition⟩ : ∃ definition, e.relationDefinition object relation = .ok definition := by
    rw [ensureRelation] at hensure
    cases hd : e.relationDefinition object relation with
    | error error =>
      rw [hd] at hensure
      cases hensure
    | ok definition => exact ⟨definition, rfl⟩
  have hnew : Behind subject EvaluationState.new EvaluationState.new := ⟨le_rfl, fun _ _ => ⟨nofun, nofun⟩⟩
  obtain ⟨-, ⟨b, hends, hb⟩, hcheck⟩ := expandWithin_tracks hmodel (e.maxDepth + 1 - 0) relation object 0
    EvaluationState.new node _ (Prod.ext hexpand rfl)
  obtain ⟨allowed, state, hrun, -⟩ := hcheck EvaluationState.new hnew
  have hdecision : e.check subject relation object context =
      .ok ⟨allowed, e.model.modelId, if allowed then none else some "no matching relationship path", state.visited⟩ :=
    check_eq_ok.2 ⟨⟨definition, hdefinition⟩, congrArg Prod.fst hrun, rfl, rfl, (congrArg (·.2.visited) hrun).symm⟩
  refine ⟨_, hdecision, ?_⟩
  -- the check and the expansion both answer as the plain evaluation does
  have hanswer := (e.checkInner_sound context subject relation object).2 allowed (congrArg Prod.fst hrun)
  rw [hanswer.unique hends]
  exact hb

/-- Projects inherit their viewers from the folder they are in. -/
def folderModel : AuthorizationModel :=
  ⟨"model_1", [("folder", ⟨[("viewer", ⟨.direct⟩)]⟩),
    ("project", ⟨[("parent", ⟨.direct⟩),
      ("viewer", ⟨.union [.direct, .tupleToUserset ⟨"parent"⟩ ⟨"viewer"⟩]⟩)]⟩)]⟩

theorem folderModel_positive : folderModel.Positive := by
  have hchildren : ∀ child ∈ [Rewrite.direct, .tupleToUserset ⟨"parent"⟩ ⟨"viewer"⟩], child.Positive := by
    intro child hchild
    simp only [List.mem_cons, List.not_mem_nil, or_false] at hchild
    rcases hchild with rfl | rfl
    · exact .direct
    · exact .tupleToUserset _ _
  intro type htype relation hrelation
  simp only [folderModel, List.mem_cons, List.not_mem_nil, or_false] at htype
  rcases htype with rfl | rfl <;> simp only [List.mem_cons, List.not_mem_nil, or_false] at hrelation
  · subst hrelation
    exact .direct
  · rcases hrelation with rfl | rfl
    · exact .direct
    · exact .union hchildren

def folderEvaluator : Evaluator :=
  ⟨folderModel, [⟨⟨"user:alice"⟩, ⟨"viewer"⟩, ⟨"folder:root"⟩, none, none⟩,
    ⟨⟨"folder:root"⟩, ⟨"parent"⟩, ⟨"project:demo"⟩, none, none⟩], 32, 1024⟩

theorem check_of_expand_folder : ∃ node decision,
    folderEvaluator.expand ⟨"viewer"⟩ ⟨"project:demo"⟩ emptyContext = .ok node ∧
    folderEvaluator.check ⟨"user:alice"⟩ ⟨"viewer"⟩ ⟨"project:demo"⟩ emptyContext = .ok decision ∧
    decision.allowed = true ∧ node.Mentions ⟨"user:alice"⟩ := by
  obtain ⟨node, hnode, -⟩ := exists_ok_of_any (p := fun _ => true)
    (show (folderEvaluator.expand ⟨"viewer"⟩ ⟨"project:demo"⟩ emptyContext).toOption.any _ = true by decide +kernel)
  obtain ⟨decision, hdecision, hiff⟩ := check_of_expand folderEvaluator folderModel_positive ⟨"viewer"⟩ ⟨"project:demo"⟩
    emptyContext hnode ⟨"user:alice"⟩
  have hallowed : folderEvaluator.check ⟨"user:alice"⟩ ⟨"viewer"⟩ ⟨"project:demo"⟩ emptyContext =
      .ok ⟨true, "model_1", none, 2⟩ := by decide +kernel
  obtain rfl := Except.ok.inj (hallowed.symm.trans hdecision)
  exact ⟨node, _, hnode, hdecision, rfl, hiff.1 rfl⟩

end Evaluator

end WasiAuth.Testkit
