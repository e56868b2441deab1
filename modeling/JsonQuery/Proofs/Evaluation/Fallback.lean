import JsonQuery.Proofs.Evaluation.Routes
import JsonQuery.Proofs.Function.Standard
import JsonQuery.Proofs.Query.Compile

namespace JsonQuery

/-- What evaluation does with an expression that does not fit its place, with arguments that are
not as many as the parameters, and with a function that gets others than it declares. The monad
tells whether it comes to that: an error in place of a result would be seen. -/
structure Fallback (m : Type → Type) where
  test : Json → Node → Expr → m Bool
  value : Json → Node → Expr → m (Option Json)
  nodes : Json → Node → Expr → m (List Node)
  arguments : List Expr → List ExprType → m (List TypedValue)
  call : Extension → List TypedValue → m TypedValue

/-- The cases in which evaluation falls back. -/
inductive Misfit where
  | test (e : Expr)
  | value (e : Expr)
  | nodes (e : Expr)
  | arguments (given : List Expr) (declared : List ExprType)
  | call (f : Extension) (given : List TypedValue)

namespace Fallback

/-- Stops at the first case in which evaluation falls back, and names it. -/
def refuse : Fallback (Except Misfit) where
  test _ _ e := .error (.test e)
  value _ _ e := .error (.value e)
  nodes _ _ e := .error (.nodes e)
  arguments es ts := .error (.arguments es ts)
  call f vs := .error (.call f vs)

/-- The results that evaluation has for these cases. -/
def usual {m : Type → Type} [Monad m] : Fallback m where
  test document n e := pure (e.holds document n)
  value document n e := pure (e.value? document n)
  nodes document n e := pure (e.nodes document n)
  arguments _ _ := pure []
  call f vs := pure (f.apply vs)

/-- A function is only called with values of the types that it declares. -/
def apply {m : Type → Type} [Monad m] (fb : Fallback m) (f : Extension) (vs : List TypedValue) :
    m TypedValue :=
  if vs.map TypedValue.type = f.params then pure (f.apply vs) else fb.call f vs

end Fallback

section Definitions

variable {m : Type → Type} [Monad m]

mutual

/-- Evaluation as it is, step by step, with every fallback left to the monad. A literal and a query
are no tests, only a query has nodes, and what a call stands for has to be what it returns. -/
def Selector.selectM (fb : Fallback m) (document : Json) (n : Node) : Selector → m (List Node)
  | .filter test => n.children.filterM (fun c => test.holdsM fb document c)
  | s => pure (s.select document n)

def Selector.selectAllM (fb : Fallback m) (document : Json) (n : Node) :
    List Selector → m (List Node)
  | [] => pure []
  | s :: ss => do
    let first ← s.selectM fb document n
    let others ← Selector.selectAllM fb document n ss
    return first ++ others

def Segment.applyM (fb : Fallback m) (document : Json) (n : Node) : Segment → m (List Node)
  | .child ss => Selector.selectAllM fb document n ss
  | .descendant ss => do
    let parts ← n.subtree.mapM (fun c => Selector.selectAllM fb document c ss)
    return parts.flatten

def Segment.applyAllM (fb : Fallback m) (document : Json) (ns : List Node) :
    List Segment → m (List Node)
  | [] => pure ns
  | s :: ss => do
    let parts ← ns.mapM (fun n => s.applyM fb document n)
    Segment.applyAllM fb document parts.flatten ss

def Expr.holdsM (fb : Fallback m) (document : Json) (n : Node) : Expr → m Bool
  | .logical .and a b => do
    if ← a.holdsM fb document n then b.holdsM fb document n else return false
  | .logical .or a b => do
    if ← a.holdsM fb document n then return true else b.holdsM fb document n
  | .not a => do return !(← a.holdsM fb document n)
  | .paren a => a.holdsM fb document n
  | .compare op a b => do
    return Comparison.holds op (← a.valueM fb document n) (← b.valueM fb document n)
  | .exists anchor ss => do
    return !(← Segment.applyAllM fb document [anchor.node document n] ss).isEmpty
  | .call f args => do
    match ← fb.apply f (← Expr.argumentsM fb document n args f.params) with
    | .logical b => return b
    | .nodes ns => return !ns.isEmpty
    | .value _ => fb.test document n (.call f args)
  | .query anchor ss => fb.test document n (.query anchor ss)
  | .literal v => fb.test document n (.literal v)

def Expr.valueM (fb : Fallback m) (document : Json) (n : Node) : Expr → m (Option Json)
  | .literal v => return some v
  | .query anchor ss => do
    return (Node.only? (← Segment.applyAllM fb document [anchor.node document n] ss)).map Node.value
  | .call f args => do
    match ← fb.apply f (← Expr.argumentsM fb document n args f.params) with
    | .value v => return v
    | _ => fb.value document n (.call f args)
  | e => fb.value document n e

def Expr.nodesM (fb : Fallback m) (document : Json) (n : Node) : Expr → m (List Node)
  | .query anchor ss => Segment.applyAllM fb document [anchor.node document n] ss
  | .call f args => do
    match ← fb.apply f (← Expr.argumentsM fb document n args f.params) with
    | .nodes ns => return ns
    | _ => fb.nodes document n (.call f args)
  | e => fb.nodes document n e

def Expr.argumentsM (fb : Fallback m) (document : Json) (n : Node) :
    List Expr → List ExprType → m (List TypedValue)
  | [], [] => return []
  | a :: as, .value :: ts => do
    let v ← a.valueM fb document n
    let vs ← Expr.argumentsM fb document n as ts
    return .value v :: vs
  | a :: as, .logical :: ts => do
    let b ← a.holdsM fb document n
    let vs ← Expr.argumentsM fb document n as ts
    return .logical b :: vs
  | a :: as, .nodes :: ts => do
    let ns ← a.nodesM fb document n
    let vs ← Expr.argumentsM fb document n as ts
    return .nodes ns :: vs
  | as, ts => fb.arguments as ts

end

def Query.evaluateM (fb : Fallback m) (q : Query) (document : Json) : m (List Node) :=
  Segment.applyAllM fb document [.root document] q.segments

end Definitions

section Pure

variable {m : Type → Type} [Monad m] [LawfulMonad m] {α β : Type}

theorem filterAuxM_pure (p : α → Bool) (xs kept : List α) :
    List.filterAuxM (fun x => (pure (p x) : m Bool)) xs kept =
      pure ((xs.filter p).reverse ++ kept) := by
  induction xs generalizing kept with
  | nil => rfl
  | cons x xs ih =>
    rw [List.filterAuxM, pure_bind, ih]
    cases hx : p x <;> simp [hx]

theorem filterM_pure (p : α → Bool) (xs : List α) :
    xs.filterM (fun x => (pure (p x) : m Bool)) = pure (xs.filter p) := by
  rw [List.filterM, filterAuxM_pure, pure_bind]
  simp

end Pure

section Evaluation

variable {m : Type → Type} [Monad m] [LawfulMonad m] {fb : Fallback m} {r : Registry}
  {document : Json}

/-- What a function is given has the types of its parameters. -/
theorem Expr.arguments_type (n : Node) {es : List Expr} {ts : List ExprType}
    (h : Expr.HaveTypes r es ts) : (Expr.arguments document n es ts).map TypedValue.type = ts := by
  induction es generalizing ts with
  | nil =>
    subst h
    simp [Expr.arguments]
  | cons e es ih =>
    cases ts with
    | nil => exact h.elim
    | cons t ts => cases t <;> simp [Expr.arguments, TypedValue.type, ih h.2]

theorem result_type (hr : r.ReturnsDeclared) (document : Json) (n : Node) {f : Extension}
    {args : List Expr} {t : ExprType} (h : (Expr.call f args).HasType r t) :
    (f.apply (Expr.arguments document n args f.params)).type.FitsAs t := by
  rw [hr f.name f h.1 _ (Expr.arguments_type n h.2.2)]
  exact h.2.1

omit [LawfulMonad m] in
theorem apply_arguments (n : Node) {f : Extension} {args : List Expr}
    (h : fb = .usual ∨ Expr.HaveTypes r args f.params) :
    fb.apply f (Expr.arguments document n args f.params) =
      pure (f.apply (Expr.arguments document n args f.params)) := by
  unfold Fallback.apply
  split
  · rfl
  · rename_i hne
    rcases h with rfl | h
    · rfl
    · exact absurd (Expr.arguments_type n h) hne

-- Both for the usual fallbacks on any tree and for any fallbacks on a well typed one, nothing
-- but evaluation happens. The induction is on the tree, together with its lists.
mutual

theorem Selector.selectM_eq (hr : r.ReturnsDeclared) : ∀ {s : Selector},
    fb = .usual ∨ s.WellTyped r → ∀ n, s.selectM fb document n = pure (s.select document n)
  | .name _, _, _ | .wildcard, _, _ | .index _, _, _ | .slice _ _ _, _, _ => by
    rw [Selector.selectM]
    simp
  | .filter e, h, n => by
    have he (c : Node) := Expr.holdsM_eq hr (h.imp_right id) c
    rw [Selector.selectM, Selector.select]
    simp only [he, filterM_pure]

theorem Selector.selectAllM_eq (hr : r.ReturnsDeclared) : ∀ {ss : List Selector},
    fb = .usual ∨ Selector.AllWellTyped r ss → ∀ n,
      Selector.selectAllM fb document n ss = pure (Selector.selectAll document n ss)
  | [], _, _ => by rw [Selector.selectAllM, Selector.selectAll]
  | s :: ss, h, n => by
    rw [Selector.selectAllM, Selector.selectM_eq hr (h.imp_right And.left) n, pure_bind,
      Selector.selectAllM_eq hr (h.imp_right And.right) n, pure_bind, Selector.selectAll]

theorem Segment.applyM_eq (hr : r.ReturnsDeclared) : ∀ {s : Segment},
    fb = .usual ∨ s.WellTyped r → ∀ n, s.applyM fb document n = pure (s.apply document n)
  | .child ss, h, n => by
    rw [Segment.applyM, Segment.apply]
    exact Selector.selectAllM_eq hr (h.imp_right And.right) n
  | .descendant ss, h, n => by
    have hss (c : Node) := Selector.selectAllM_eq hr (h.imp_right And.right) c
    rw [Segment.applyM, Segment.apply]
    simp only [hss, List.mapM_pure, pure_bind, List.flatMap_def]

theorem Segment.applyAllM_eq (hr : r.ReturnsDeclared) : ∀ {ss : List Segment},
    fb = .usual ∨ Segment.AllWellTyped r ss → ∀ ns,
      Segment.applyAllM fb document ns ss = pure (Segment.applyAll document ns ss)
  | [], _, _ => by rw [Segment.applyAllM, Segment.applyAll]
  | s :: ss, h, ns => by
    have hs (n : Node) := Segment.applyM_eq hr (h.imp_right And.left) n
    rw [Segment.applyAllM, Segment.applyAll]
    simp only [hs, List.mapM_pure, pure_bind, List.flatMap_def]
    exact Segment.applyAllM_eq hr (h.imp_right And.right) _

theorem Expr.holdsM_eq (hr : r.ReturnsDeclared) : ∀ {e : Expr},
    fb = .usual ∨ e.HasType r .logical → ∀ n,
      e.holdsM fb document n = pure (e.holds document n)
  | .logical op a b, h, n => by
    have ha := Expr.holdsM_eq hr (h.imp_right (fun h => h.2.1)) n
    have hb := Expr.holdsM_eq hr (h.imp_right (fun h => h.2.2)) n
    cases op with
    | and =>
      rw [Expr.holdsM, Expr.holds, ha, hb, pure_bind]
      cases a.holds document n <;> rfl
    | or =>
      rw [Expr.holdsM, Expr.holds, ha, hb, pure_bind]
      cases a.holds document n <;> rfl
  | .not a, h, n => by
    rw [Expr.holdsM, Expr.holds, Expr.holdsM_eq hr (h.imp_right And.right) n, pure_bind]
  | .paren a, h, n => by
    rw [Expr.holdsM, Expr.holds, Expr.holdsM_eq hr (h.imp_right And.right) n]
  | .compare op a b, h, n => by
    rw [Expr.holdsM, Expr.holds, Expr.valueM_eq hr (h.imp_right (fun h => h.2.1)) n, pure_bind,
      Expr.valueM_eq hr (h.imp_right (fun h => h.2.2)) n, pure_bind]
  | .exists anchor ss, h, n => by
    rw [Expr.holdsM, Segment.applyAllM_eq hr (h.imp_right And.right), pure_bind, Expr.holds_exists]
  | .call f args, h, n => by
    rw [Expr.holdsM, Expr.argumentsM_eq hr (h.imp_right (fun h => h.2.2)) n, pure_bind,
      apply_arguments n (h.imp_right (fun h => h.2.2)), pure_bind, Expr.holds]
    cases hresult : f.apply (Expr.arguments document n args f.params) with
    | logical b => rfl
    | nodes ns => rfl
    | value v =>
      rcases h with rfl | h
      · simp [Fallback.usual, Expr.holds, hresult]
      · have htype := result_type hr document n h
        simp [hresult, TypedValue.type] at htype
  | .query anchor ss, h, n => by
    rcases h with rfl | h
    · rw [Expr.holdsM]
      rfl
    · simp [Expr.HasType] at h
  | .literal v, h, n => by
    rcases h with rfl | h
    · rw [Expr.holdsM]
      rfl
    · simp [Expr.HasType] at h

theorem Expr.valueM_eq (hr : r.ReturnsDeclared) : ∀ {e : Expr},
    fb = .usual ∨ e.HasType r .value → ∀ n,
      e.valueM fb document n = pure (e.value? document n)
  | .literal v, _, n => by rw [Expr.valueM, Expr.value?]
  | .query anchor ss, h, n => by
    rw [Expr.valueM, Segment.applyAllM_eq hr (h.imp_right And.right), pure_bind,
      Expr.value?_query]
  | .call f args, h, n => by
    rw [Expr.valueM, Expr.argumentsM_eq hr (h.imp_right (fun h => h.2.2)) n, pure_bind,
      apply_arguments n (h.imp_right (fun h => h.2.2)), pure_bind, Expr.value?]
    cases hresult : f.apply (Expr.arguments document n args f.params) with
    | value v => rfl
    | logical _ | nodes _ =>
      rcases h with rfl | h
      · simp [Fallback.usual, Expr.value?, hresult]
      · have htype := result_type hr document n h
        simp [hresult, TypedValue.type, ExprType.FitsAs] at htype
  | .logical _ _ _, h, n | .not _, h, n | .paren _, h, n | .compare _ _ _, h, n
  | .exists _ _, h, n => by
    rcases h with rfl | h
    · rw [Expr.valueM]
      · rfl
      all_goals simp
    · simp [Expr.HasType] at h

theorem Expr.nodesM_eq (hr : r.ReturnsDeclared) : ∀ {e : Expr},
    fb = .usual ∨ e.HasType r .nodes → ∀ n,
      e.nodesM fb document n = pure (e.nodes document n)
  | .query anchor ss, h, n => by
    rw [Expr.nodesM, Segment.applyAllM_eq hr (h.imp_right And.right), Expr.nodes_query]
  | .call f args, h, n => by
    rw [Expr.nodesM, Expr.argumentsM_eq hr (h.imp_right (fun h => h.2.2)) n, pure_bind,
      apply_arguments n (h.imp_right (fun h => h.2.2)), pure_bind, Expr.nodes]
    cases hresult : f.apply (Expr.arguments document n args f.params) with
    | nodes ns => rfl
    | logical _ | value _ =>
      rcases h with rfl | h
      · simp [Fallback.usual, Expr.nodes, hresult]
      · have htype := result_type hr document n h
        simp [hresult, TypedValue.type, ExprType.FitsAs] at htype
  | .logical _ _ _, h, n | .not _, h, n | .paren _, h, n | .compare _ _ _, h, n
  | .exists _ _, h, n | .literal _, h, n => by
    rcases h with rfl | h
    · rw [Expr.nodesM]
      · rfl
      all_goals simp
    · simp [Expr.HasType] at h

theorem Expr.argumentsM_eq (hr : r.ReturnsDeclared) : ∀ {es : List Expr} {ts : List ExprType},
    fb = .usual ∨ Expr.HaveTypes r es ts → ∀ n,
      Expr.argumentsM fb document n es ts = pure (Expr.arguments document n es ts)
  | [], [], _, _ => by rw [Expr.argumentsM, Expr.arguments] <;> simp
  | [], t :: ts, h, n => by
    rcases h with rfl | h
    · rw [Expr.argumentsM, Expr.arguments]
      · rfl
      all_goals simp
    · cases h
  | e :: es, [], h, n => by
    rcases h with rfl | h
    · rw [Expr.argumentsM, Expr.arguments]
      · rfl
      all_goals simp
    · exact h.elim
  | e :: es, .value :: ts, h, n => by
    rw [Expr.argumentsM, Expr.valueM_eq hr (h.imp_right And.left) n, pure_bind,
      Expr.argumentsM_eq hr (h.imp_right And.right) n, pure_bind, Expr.arguments]
  | e :: es, .logical :: ts, h, n => by
    rw [Expr.argumentsM, Expr.holdsM_eq hr (h.imp_right And.left) n, pure_bind,
      Expr.argumentsM_eq hr (h.imp_right And.right) n, pure_bind, Expr.arguments]
  | e :: es, .nodes :: ts, h, n => by
    rw [Expr.argumentsM, Expr.nodesM_eq hr (h.imp_right And.left) n, pure_bind,
      Expr.argumentsM_eq hr (h.imp_right And.right) n, pure_bind, Expr.arguments]

end

end Evaluation

namespace Query

/-- With the usual fallbacks, on any tree, nothing but evaluation happens. -/
theorem evaluateM_usual {m : Type → Type} [Monad m] [LawfulMonad m] (q : Query)
    (document : Json) : q.evaluateM (Fallback.usual : Fallback m) document =
      pure (q.evaluate document) :=
  Segment.applyAllM_eq (r := .empty) (fun _ _ hf => nomatch hf) (.inl rfl) _

end Query

namespace Environment

/-- Where functions return what they declare, the evaluation of a compiled query never falls back:
whatever monad the fallbacks act in and whatever they do there, errors included, nothing of it
happens. -/
theorem evaluateM_compiled {env : Environment} {text : String} {q : Query}
    (h : env.compile text = .ok q) (hr : env.registry.ReturnsDeclared) {m : Type → Type} [Monad m]
    [LawfulMonad m] (fb : Fallback m) (document : Json) :
    q.evaluateM fb document = pure (q.evaluate document) :=
  Segment.applyAllM_eq hr (.inr (compile_iff.mp h).2.2.1) _

/-- A literal in the place of a test, as no query that compiles has it. -/
example : (Query.mk [.child [.filter (.literal .null)]]).evaluateM .refuse (.array [.null]) =
    .error (.test (.literal .null)) := rfl

/-- A test and a comparison of the results of two functions, one of which gets nodes. -/
def callSample : Query :=
  ⟨[.child [.filter (.logical .or
    (.call .fullMatch [.query .current [.child [.name "a"]], .literal (.string "x")])
    (.compare .greater (.call .count [.query .current [.child [.wildcard]]])
      (.literal (.number (.int 1)))))]]⟩

theorem callSample_compiles :
    Environment.default.compile "$[?match(@.a,'x')||count(@.*)>1]" = .ok callSample := by
  have htokens : Token.tokenize "$[?match(@.a,'x')||count(@.*)>1]" = .ok ⟨[⟨.root, 0⟩,
      ⟨.openBracket, 1⟩, ⟨.question, 2⟩, ⟨.function "match", 3⟩, ⟨.openParen, 8⟩, ⟨.current, 9⟩,
      ⟨.dot, 10⟩, ⟨.name "a", 11⟩, ⟨.comma, 12⟩, ⟨.string "x", 13⟩, ⟨.closeParen, 16⟩,
      ⟨.logical .or, 17⟩, ⟨.function "count", 19⟩, ⟨.openParen, 24⟩, ⟨.current, 25⟩, ⟨.dot, 26⟩,
      ⟨.wildcard, 27⟩, ⟨.closeParen, 28⟩, ⟨.comparison .greater, 29⟩,
      ⟨.number ⟨false, ['1'], none, none⟩, 30⟩, ⟨.closeBracket, 31⟩], 32⟩ := by cbv
  refine compile_iff.mpr ⟨by unfold Trimmed; cbv, ⟨_, htokens, ?_⟩, ?_, by decide⟩
  · have hmember (l : Level) : (Expr.query .current [.child [.name "a"]]).Spells l
        [.current, .dot, .name "a"] := ⟨_, rfl, _, [], rfl, .inl ⟨_, _, rfl, rfl, rfl⟩, rfl⟩
    have hmembers (l : Level) : (Expr.query .current [.child [.wildcard]]).Spells l
        [.current, .dot, .wildcard] := ⟨_, rfl, _, [], rfl, .inl ⟨_, _, rfl, rfl, rfl⟩, rfl⟩
    have hone (l : Level) : (Expr.literal (.number (.int 1))).Spells l
        [.number ⟨false, ['1'], none, none⟩] := ⟨_, rfl, _, rfl, by decide⟩
    have hmatch (l : Level) : (Expr.call .fullMatch [.query .current [.child [.name "a"]],
        .literal (.string "x")]).Spells l [.function "match", .openParen, .current, .dot,
          .name "a", .comma, .string "x", .closeParen] :=
      ⟨_, rfl, _, [.comma, .string "x"], rfl, hmember _, _, [], rfl, ⟨_, rfl, rfl⟩, rfl⟩
    have hcount (l : Level) : (Expr.call .count [.query .current [.child [.wildcard]]]).Spells l
        [.function "count", .openParen, .current, .dot, .wildcard, .closeParen] :=
      ⟨_, rfl, _, [], rfl, hmembers _, rfl⟩
    exact ⟨_, rfl, _, [], rfl, .inr ⟨_, rfl, _, [], rfl, ⟨_, rfl, by decide, _, _, rfl, hmatch _,
      by decide, _, _, rfl, hcount _, hone _⟩, rfl⟩, rfl⟩
  · have hmatch : (Expr.call .fullMatch [.query .current [.child [.name "a"]],
        .literal (.string "x")]).HasType .standard .logical := by
      refine ⟨rfl, .inl rfl, ⟨.inr ⟨rfl, rfl⟩, ⟨?_, trivial, trivial⟩, trivial⟩, ⟨rfl, trivial⟩, rfl⟩
      simp
    have hcount : (Expr.call .count [.query .current [.child [.wildcard]]]).HasType .standard
        .value := by
      refine ⟨rfl, .inl rfl, ⟨.inl rfl, ⟨?_, trivial, trivial⟩, trivial⟩, rfl⟩
      simp
    refine ⟨⟨?_, ⟨rfl, hmatch, rfl, hcount, rfl, trivial⟩, trivial⟩, trivial⟩
    simp

theorem evaluateM_compiled_calls :
    let document := Json.array [.object [("a", .string "x")], .object [("b", .null), ("c", .null)]]
    callSample.evaluateM .refuse document = .ok (callSample.evaluate document) :=
  evaluateM_compiled callSample_compiles Registry.returnsDeclared_standard .refuse _

end Environment
end JsonQuery
