import CanOpen.Foundation.Trace
import CanOpen.Node.Receive

/-! # What bus traffic can change

The dictionary of a node is written from the SDO server and from receive PDOs.
Over any sequence of frames it keeps its addresses, access rights and data types,
and the values of what a master may not write.
-/

namespace CanOpen.Node

open ObjectDictionary (MasterChange)

variable {N : Nat}

def receive (node : Node N) (frame : UInt16 × List UInt8) : Exec (Node N × Option TxFrame) :=
  node.onFrame frame.1 frame.2

theorem Served.masterChange {node : Node N} {cobId : UInt16} {data : List UInt8}
    {out : Node N × Option TxFrame} (served : Served node cobId data out) :
    MasterChange node.od out.1.od := by
  cases served with
  | ignored | lss | nmt => exact .refl node.od
  | sdo payload handled tx _ _ _ _ handles =>
      exact (Sdo.SdoServer.handle_effect handles).masterChange
  | rpdo slot result od _ _ _ _ _ unpacks => exact masterChange_unpack unpacks

/-- However many frames a node is handed, and whatever they contain, nothing
changes but the values of writable objects; and no frame causes a panic if the
SDO server starts in a state it can reach. -/
theorem traffic_changes (node : Node N) (frames : List (UInt16 × List UInt8)) :
    (∀ events final, Trace.run receive node frames = pure (events, final) →
      MasterChange node.od final.od) ∧
    (node.sdo.Valid → ∃ events final, Trace.run receive node frames = pure (events, final)) := by
  constructor
  · intro events final ran
    refine Trace.run_invariant (fun state => MasterChange node.od state.od)
      (.refl node.od) (fun state frame after tx changed taken => ?_) ran
    exact changed.trans (onFrame_served taken).masterChange
  · intro valid
    have returns : ∀ (state : Node N), ∀ frame ∈ frames, state.sdo.Valid →
        ∃ after tx, receive state frame = pure (after, tx) ∧ after.sdo.Valid := by
      intro state frame _ validState
      rcases onFrame_returns frame.1 frame.2 (fun _ => validState) with ⟨⟨after, tx⟩, taken⟩
      exact ⟨after, tx, taken, (onFrame_served taken).valid validState⟩
    rcases Trace.run_total (fun state : Node N => state.sdo.Valid) frames valid returns with
      ⟨events, final, ran, -⟩
    exact ⟨events, final, ran⟩

end CanOpen.Node
