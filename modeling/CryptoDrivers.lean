import CryptoDrivers.Basic
import CryptoDrivers.Dcp.Utils
import CryptoDrivers.Caam.Env
import CryptoDrivers.Caam.Dsa
import CryptoDrivers.Proofs.Loops
import CryptoDrivers.Proofs.Memalign
import CryptoDrivers.Proofs.DsaSteps
import CryptoDrivers.Proofs.KeyConv
import CryptoDrivers.Proofs.DsaResults
import CryptoDrivers.Proofs.Coherence
import CryptoDrivers.Proofs.Release
import CryptoDrivers.Proofs.JobInputs
import CryptoDrivers.Dcp.Heap
import CryptoDrivers.Proofs.HeapRuns
import CryptoDrivers.Proofs.KeyLifecycle
