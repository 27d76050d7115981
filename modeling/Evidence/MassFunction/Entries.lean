import Evidence.Event.Naming

namespace Evidence.MassFunction

variable {α : Type} [Scalar α]

def entries (m : MassFunction α) : Except (Fault α) (List (Event × α)) :=
  m.masses.mapM fun (mask, x) => do
    let e ← Event.ofMask m.frame mask
    .ok (e, x)

def focalEvents (m : MassFunction α) : Except (Fault α) (List Event) :=
  m.masses.mapM fun (mask, _) => Event.ofMask m.frame mask

def text (m : MassFunction α) : Except (Fault α) String := do
  let _ ← m.ranked.mapM fun (mask, _) => (Event.ofMask m.frame mask : Except (Fault α) Event)
  .ok m.plainText

end Evidence.MassFunction
