import Evidence.MassFunction.Construction

namespace Evidence

structure Complaint where
  code : Fault.Code
  message : String

structure Report where
  valid : Bool
  errors : List Complaint

variable {α : Type} [Scalar α]

def Fault.complaint (f : Fault α) : Complaint := ⟨f.code, f.message⟩

def Report.ofFaults (faults : List (Fault α)) : Report where
  valid := faults.isEmpty
  errors := faults.map Fault.complaint

def MassFunction.reportRecord (record : Record (Value α)) (options : MassOptions α) :
    Except (Failure α) Report :=
  (recordFaults record options).map Report.ofFaults

end Evidence
