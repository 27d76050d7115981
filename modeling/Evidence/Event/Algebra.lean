import Evidence.Fault

namespace Evidence.Event

variable {α : Type}

def both {β : Type} (op : Mask → Mask → β) (d e : Event) : Except (Fault α) β :=
  if d.frame = e.frame then .ok (op d.mask e.mask) else .error (.eventsOfFrames d.frame e.frame)

def inter (d e : Event) : Except (Fault α) Event := both (fun m n => ⟨d.frame, m.inter n⟩) d e

def union (d e : Event) : Except (Fault α) Event := both (fun m n => ⟨d.frame, m.union n⟩) d e

def meets (d e : Event) : Except (Fault α) Bool := both (fun m n => m.inter n != .empty) d e

def isSubset (d e : Event) : Except (Fault α) Bool := both (fun m n => m.diff n == .empty) d e

end Evidence.Event
