import Mathlib.Logic.Function.Basic
import Mathlib.Tactic

/-!
The send history of transport-wide numbers (`twcc_history.h`): a ring of 4096 entries, keyed by
the low bits of the number, that remembers when a packet was sent and what feedback has said
about it so far.

`packet` is history: it tells packets apart that used the same number.
-/

namespace MezonSfu.Congestion

def historyCapacity : ℕ := 4096

structure HistoryEntry where
  twccSeq : ℕ := 0
  sendTimeUs : ℤ := 0
  sizeBytes : ℕ := 0
  valid : Bool := false
  receivedConsumed : Bool := false
  lossReported : Bool := false
  isProbe : Bool := false
  probeClusterId : ℕ := 0
  packet : ℕ := 0

structure History where
  entries : ℕ → HistoryEntry

namespace History

def init : History := ⟨fun _ => {}⟩

variable (h : History)

def entry (seq : ℕ) : HistoryEntry := h.entries (seq % historyCapacity)

def set (seq : ℕ) (e : HistoryEntry) : History :=
  ⟨Function.update h.entries (seq % historyCapacity) e⟩

def record (seq : ℕ) (sendTimeUs : ℤ) (sizeBytes packet : ℕ) : History :=
  h.set seq {
    twccSeq := seq, sendTimeUs := sendTimeUs, sizeBytes := sizeBytes, valid := true
    receivedConsumed := false, lossReported := false, isProbe := false, probeClusterId := 0
    packet := packet }

def recordProbe (seq : ℕ) (sendTimeUs : ℤ) (sizeBytes clusterId packet : ℕ) : History :=
  h.set seq {
    twccSeq := seq, sendTimeUs := sendTimeUs, sizeBytes := sizeBytes, valid := true
    receivedConsumed := false, lossReported := false, isProbe := true
    probeClusterId := clusterId, packet := packet }

def Holds (seq : ℕ) : Prop := (h.entry seq).valid = true ∧ (h.entry seq).twccSeq = seq

instance (h : History) (seq : ℕ) : Decidable (h.Holds seq) := inferInstanceAs (Decidable (_ ∧ _))

def lookupExt (seq : ℕ) : Option HistoryEntry :=
  if h.Holds seq then some (h.entry seq) else none

/-- `sfu_twcc_history_consume_received_ext`; the entry it answers with is the one before. -/
def consumeReceivedExt (seq : ℕ) : Option (History × HistoryEntry) :=
  if h.Holds seq ∧ (h.entry seq).receivedConsumed = false then
    some (h.set seq { h.entry seq with receivedConsumed := true }, h.entry seq)
  else none

def reportLossOnce (seq : ℕ) : Option History :=
  if h.Holds seq ∧ (h.entry seq).receivedConsumed = false ∧
      (h.entry seq).lossReported = false then
    some (h.set seq { h.entry seq with lossReported := true })
  else none

end History

end MezonSfu.Congestion
