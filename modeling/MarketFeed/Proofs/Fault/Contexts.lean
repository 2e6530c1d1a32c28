import MarketFeed.Proofs.Connection.Serving

/-!
# What contexts change about a fault

A context says what failed, and nothing else: the fault is still taken for what it was under all its
contexts, by every question that can be asked of it and by the connection that it arises on. Only
its report grows, by one entry for each context.
-/

namespace MarketFeed

namespace Fault

variable {fault other : Fault}

/-- The fault that a context was added to. -/
def source? : Fault → Option Fault
  | context _ source => some source
  | _ => none

/-! The chain and the report of a fault go on with its source, down to the root. -/

lemma chain_eq (fault : Fault) : fault.chain = fault :: fault.source?.elim [] chain := by
  cases fault <;> rfl

lemma chain_ne_nil (fault : Fault) : fault.chain ≠ [] := by
  rw [chain_eq]
  exact List.cons_ne_nil _ _

lemma report_eq (fault : Fault) : fault.report =
    fault.source?.elim fault.message fun source =>
      fault.message ++ "\nCaused by: " ++ source.report := by
  rw [report, chain_eq]
  cases fault.source? with
  | none => rfl
  | some source =>
    rw [Option.elim_some, Option.elim_some, List.map_cons, report]
    exact String.intercalate_cons_of_ne_nil (mt List.map_eq_nil_iff.mp source.chain_ne_nil)

lemma source?_root (fault : Fault) : fault.root.source? = none := by
  induction fault with
  | context text source ih => exact ih
  | _ => rfl

lemma getLast?_chain (fault : Fault) : fault.chain.getLast? = some fault.root := by
  induction fault with
  | context text source ih =>
    have hlast : (context text source :: source.chain).getLast? = source.chain.getLast? :=
      List.getLast?_cons_of_ne_nil source.chain_ne_nil
    exact hlast.trans ih
  | _ => rfl

lemma report_context (text : String) (fault : Fault) :
    (context text fault).report = text ++ "\nCaused by: " ++ fault.report :=
  report_eq (context text fault)

/-- The outermost context, which is the one added last, comes first in the report. -/
lemma report_withContexts (fault : Fault) (texts : List String) :
    (fault.withContexts texts).report =
      String.join (texts.reverse.map (· ++ "\nCaused by: ")) ++ fault.report := by
  induction texts generalizing fault with
  | nil => simp [withContexts]
  | cons text rest ih =>
    have hinner : fault.withContexts (text :: rest) = (context text fault).withContexts rest := rfl
    rw [hinner, ih, report_context]
    simp [String.append_assoc]

/-- The two faults are taken for the same by whoever asks what they are. -/
structure Alike (fault other : Fault) : Prop where
  root : fault.root = other.root
  isConnectionFatal : fault.isConnectionFatal = other.isConnectionFatal
  isRetryable : fault.isRetryable = other.isRetryable
  transport : fault.transport? = other.transport?
  timeout : fault.timeout? = other.timeout?
  connectionClosed : fault.connectionClosed? = other.connectionClosed?
  authentication : fault.authentication? = other.authentication?
  exchange : fault.exchange? = other.exchange?
  outOfSync : fault.outOfSync? = other.outOfSync?
  exhausted : fault.exhausted? = other.exhausted?
  cancelled : fault.cancelled? = other.cancelled?

/-- Every answer depends on the root alone. -/
lemma alike_of_root (h : fault.root = other.root) : Alike fault other where
  root := h
  isConnectionFatal := by rw [Fault.isConnectionFatal, h, Fault.isConnectionFatal]
  isRetryable := by rw [Fault.isRetryable, h, Fault.isRetryable]
  transport := by rw [transport?, h, transport?]
  timeout := by rw [timeout?, h, timeout?]
  connectionClosed := by rw [connectionClosed?, h, connectionClosed?]
  authentication := by rw [authentication?, h, authentication?]
  exchange := by rw [exchange?, h, exchange?]
  outOfSync := by rw [outOfSync?, h, outOfSync?]
  exhausted := by rw [exhausted?, h, exhausted?]
  cancelled := by rw [cancelled?, h, cancelled?]

end Fault

namespace Circuit

/-- A handler's fault closes the connection if it is one of the connection. -/
lemma conclude_failed (circuit : Circuit) (dispatch : Dispatch) (fault : Fault) :
    (circuit.conclude dispatch (.error (.fault fault))).1 =
      if fault.isConnectionFatal then some fault else none := by
  unfold conclude
  dsimp only
  split <;> rfl

lemma closeFor_state (outcome : Option Fault × Circuit) : (closeFor outcome).connection.state =
    if outcome.1.isSome ∧ outcome.2.connection.closeFault = none then .closed
    else outcome.2.connection.state := by
  obtain ⟨fault | fault, circuit⟩ := outcome
  · rfl
  · cases hc : circuit.connection.closeFault with
    | none => simp [closeFor, teardown, beginTeardown, hc, finishClosing, emit]
    | some first => simp [closeFor, teardown, beginTeardown, hc]

/-- The state that a handler's fault leaves the connection in depends only on whether the fault is
one of the connection. -/
lemma state_after_failure (circuit : Circuit) (dispatch : Dispatch) (fault : Fault) :
    (closeFor (circuit.conclude dispatch (.error (.fault fault)))).connection.state =
      if fault.isConnectionFatal ∧ circuit.connection.closeFault = none then .closed
      else circuit.connection.state := by
  have hlife := (circuit.serves_conclude dispatch (.error (.fault fault))).connection.life
  have hstate : (circuit.conclude dispatch (.error (.fault fault))).2.connection.state =
      circuit.connection.state := congrArg Life.state hlife
  have hfault : (circuit.conclude dispatch (.error (.fault fault))).2.connection.closeFault =
      circuit.connection.closeFault := congrArg Life.closeFault hlife
  rw [closeFor_state, conclude_failed, hstate, hfault]
  cases fault.isConnectionFatal <;> rfl

end Circuit

namespace Fault

/-- Contexts around a fault change none of the answers about it. They come first in its report, from
the outermost one on, and the fault's own report follows. A handler that fails with the fault closes
its connection with or without them. -/
theorem contexts_transparent (fault : Fault) (texts : List String) :
    let wrapped := fault.withContexts texts
    Alike wrapped fault ∧
    wrapped.chain.getLast? = some fault.root ∧
    (∀ text source, wrapped.root ≠ context text source) ∧
    wrapped.report = String.join (texts.reverse.map (· ++ "\nCaused by: ")) ++ fault.report ∧
    fault.root.report = fault.root.message ∧
    ∀ (circuit : Circuit) (dispatch : Dispatch),
      let concluded (fault : Fault) := circuit.conclude dispatch (.error (.fault fault))
      (concluded wrapped).1 = (concluded fault).1.map (·.withContexts texts) ∧
      (Circuit.closeFor (concluded wrapped)).connection.state =
        (Circuit.closeFor (concluded fault)).connection.state := by
  intro wrapped
  have hroot : wrapped.root = fault.root := root_withContexts fault texts
  have halike : Alike wrapped fault := alike_of_root hroot
  refine ⟨halike, ?_, ?_, report_withContexts fault texts, ?_, ?_⟩
  · rw [getLast?_chain, hroot]
  · intro text source heq
    have hnone := wrapped.source?_root
    rw [heq] at hnone
    exact absurd hnone (by simp [source?])
  · rw [report_eq, source?_root, Option.elim_none]
  · intro circuit dispatch concluded
    constructor
    · rw [Circuit.conclude_failed, Circuit.conclude_failed, halike.isConnectionFatal]
      split <;> rfl
    · rw [Circuit.state_after_failure, Circuit.state_after_failure, halike.isConnectionFatal]

end Fault

end MarketFeed
