/-
What a resume has delivered when it reports `ResumedActivated`.

The wait before the pushes is for the archives of the missing chunks, and the manifest goes
to every archive of the file that has a peer after that wait.  So an archive that holds none
of the missing chunks is left out where nobody has told who it is.
-/
import Snip.Proofs.IngestPlacement
import Snip.Proofs.IngestRepair

namespace Snip

open Dialogue

namespace Ingest

section

variable {σ : Type} [Blake3] [CryptoLib] [AssignmentScore]

variable {c : Ingest σ} {file : ReproducedFile} {snapshot : List Addr}
  {resolver : MapPeerResolver} {missing : Finset Nat} {log : List IngestCall}

omit [Blake3] [CryptoLib] [AssignmentScore] in
theorem PushesOnly.append {chunks : Finset Nat} {log' : List IngestCall}
    (h : PushesOnly chunks log) (h' : PushesOnly chunks log') : PushesOnly chunks (log ++ log') := by
  intro peer data merkleRoot i proof answer hmem
  rcases List.mem_append.mp hmem with hmem | hmem
  · exact h _ _ _ _ _ _ hmem
  · exact h' _ _ _ _ _ _ hmem

variable [Bs58] [SumchainWire] [FileLifecycleWire]

end

end Ingest

/-! #### An archive that nobody has heard of

The chunk of the file is attested, and the coverage can activate from the second time on that
it is read.  So the resume waits for nobody. -/

section

variable [Blake3] [CryptoLib]

/-- The file that is resumed. -/
def unheardFile : ReproducedFile := .ofPublic ['f'] [1, 2, 3]

end

def IngestCall.isPush : IngestCall → Bool
  | .push .. => true
  | _ => false

end Snip
