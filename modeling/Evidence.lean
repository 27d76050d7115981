import Evidence.MassFunction.Binary
import Evidence.MassFunction.Report
import Evidence.Statement
import Evidence.Untyped.Fusion
import Evidence.Proofs.Deciding
import Evidence.Proofs.Bracketing
import Evidence.Proofs.Obtainable
import Evidence.Proofs.BinaryForm
import Evidence.Proofs.NearTotal
import Evidence.Proofs.Accepting
import Evidence.Proofs.Conservation
import Evidence.Proofs.Naming
import Evidence.Proofs.PignisticSum
import Evidence.Proofs.Renaming
import Evidence.Proofs.RenamedEvidence
import Evidence.Proofs.Ignorance
import Evidence.Proofs.Commonality
import Evidence.Proofs.Sharpness
import Evidence.Proofs.Reporting
import Evidence.Proofs.Guarding
import Evidence.Proofs.Advising
import Evidence.Proofs.Framing
import Evidence.Proofs.Accumulating
import Evidence.Proofs.Admitting
import Evidence.Proofs.Protruding
import Evidence.Proofs.Relaying
import Evidence.Proofs.Inversion
import Evidence.Proofs.Contradiction
import Evidence.Proofs.Agreement
import Evidence.Proofs.Conditioning
import Evidence.Proofs.Likeliest
import Evidence.Proofs.Averaging
import Evidence.Proofs.Precedence
import Evidence.Proofs.CodePoints
import Evidence.Proofs.Likeness
import Evidence.Proofs.Transcribing
import Evidence.Proofs.WholeNumbers
import Evidence.Proofs.Resolving
import Evidence.Proofs.Display
