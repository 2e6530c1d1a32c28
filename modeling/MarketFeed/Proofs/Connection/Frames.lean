import MarketFeed.Proofs.Connection.Station

/-!
# Frames that come in

A message brings a frame if it is the text of one. A frame that is neither a sign of life nor an
error goes to the handler of its kind, and the connection takes over from the handler which books it
may have written.
-/

namespace MarketFeed

/-- The symbols whose books a handler may have written. Nothing is known of them if it
overflowed. -/
def Dispatch.fed (dispatch : Dispatch) : Except Stop Unit → List String
  | .error (.overflow _) => []
  | .ok () | .error (.fault _) => dispatch.books

namespace Circuit

/-- What the handler of a frame ends with and what it has done by then, if there is one. -/
def handled (adapter : Adapter) (circuit : Circuit) (frame : Json) :
    Option (Except Stop Unit × Dispatch) :=
  if adapter.isPong frame || (adapter.classify frame).isSome then none
  else
    ((adapter.streamKind frame).bind adapter.handlers.get?).map fun handler =>
      StateT.run (ExceptT.run (handler frame))
        (Dispatch.new circuit.connection.url circuit.store)

def fedBy (adapter : Adapter) (circuit : Circuit) (frame : Json) : List String :=
  (circuit.handled adapter frame).elim [] fun (result, dispatch) => dispatch.fed result

variable {adapter : Adapter} {circuit : Circuit} {frame : Json}

lemma handled_of_pong (h : adapter.isPong frame = true) : circuit.handled adapter frame = none := by
  rw [handled, h, Bool.true_or, if_pos rfl]

lemma handled_of_error {error : FrameError} (h : adapter.classify frame = some error) :
    circuit.handled adapter frame = none := by
  rw [handled, h, Option.isSome_some, Bool.or_true, if_pos rfl]

lemma handled_of_kind (hp : adapter.isPong frame = false) (hc : adapter.classify frame = none) :
    circuit.handled adapter frame =
      ((adapter.streamKind frame).bind adapter.handlers.get?).map fun handler =>
        StateT.run (ExceptT.run (handler frame))
          (Dispatch.new circuit.connection.url circuit.store) := by
  rw [handled, hp, hc, Option.isSome_none, Bool.or_false, if_neg (by simp)]

lemma dispatch_of_handled {result : Except Stop Unit} {dispatch : Dispatch}
    (h : circuit.handled adapter frame = some (result, dispatch)) (now : Int) :
    circuit.dispatch adapter now frame = circuit.conclude dispatch result := by
  cases hpong : adapter.isPong frame with
  | true => exact absurd (handled_of_pong hpong ▸ h) (by simp)
  | false =>
    cases hclass : adapter.classify frame with
    | some error => exact absurd (handled_of_error hclass ▸ h) (by simp)
    | none =>
      rw [handled_of_kind hpong hclass] at h
      obtain ⟨handler, hhandler, hrun⟩ := Option.map_eq_some_iff.mp h
      unfold Circuit.dispatch
      rw [hpong, if_neg (by simp), hclass]
      dsimp only
      rw [hhandler]
      dsimp only
      rw [hrun]

lemma fedBy_of_none (h : circuit.handled adapter frame = none) :
    circuit.fedBy adapter frame = [] := by
  rw [fedBy, h, Option.elim_none]

end Circuit

namespace Station

/-- The frame that a step brings, if it brings one. -/
def Step.frame? : Step → Option Json
  | .text _ message => (Json.parse message).toOption
  | .bytes _ message =>
    (String.fromUTF8? ⟨message.toArray⟩).bind fun message => (Json.parse message).toOption
  | _ => none

/-- The symbols whose books the handler of a step's frame may have written. -/
def fed (adapter : Adapter) (station : Station) (step : Step) : List String :=
  (step.frame?.map (station.circuit.fedBy adapter)).getD []

/-- The same for all the frames of a run. -/
def fedAll (adapter : Adapter) (station : Station) : List Step → List String
  | [] => []
  | step :: rest => station.fed adapter step ++ (station.after adapter step).fedAll adapter rest

/-- A message of the given size is counted. The frame that it brings is taken, if it brings one. -/
def receive (adapter : Adapter) (station : Station) (now : Int) (size : Nat) :
    Option Json → Option Fault × Station
  | some frame =>
    let (fault, circuit) := (station.circuit.countReceived now size).dispatch adapter now frame
    (fault, { station with circuit })
  | none =>
    (none, { station with circuit := (station.circuit.countReceived now size).countParseFailure })

variable {adapter : Adapter} {station : Station} {step : Step} {frame : Json}

lemma work_text (adapter : Adapter) (station : Station) (now : Int) (message : String) :
    station.work adapter (.text now message) =
      station.receive adapter now message.utf8ByteSize (Step.text now message).frame? := by
  rw [work, Circuit.takeText, Step.frame?]
  dsimp only
  cases Json.parse message <;> rfl

lemma work_bytes (adapter : Adapter) (station : Station) (now : Int) (message : List UInt8) :
    ∃ size, station.work adapter (.bytes now message) =
      station.receive adapter now size (Step.bytes now message).frame? := by
  rw [work, Circuit.takeBytes, Step.frame?]
  cases String.fromUTF8? ⟨message.toArray⟩ with
  | none => exact ⟨message.length, rfl⟩
  | some decoded => exact ⟨decoded.utf8ByteSize, work_text adapter station now decoded⟩

lemma work_of_frame (adapter : Adapter) (station : Station) (h : step.frame? = some frame) :
    ∃ now size, station.work adapter step = station.receive adapter now size (some frame) := by
  cases step with
  | text now message => exact ⟨now, message.utf8ByteSize, h ▸ work_text ..⟩
  | bytes now message =>
    obtain ⟨size, hwork⟩ := work_bytes adapter station now message
    exact ⟨now, size, h ▸ hwork⟩
  | _ => exact absurd h (by simp [Step.frame?])

end Station

end MarketFeed
