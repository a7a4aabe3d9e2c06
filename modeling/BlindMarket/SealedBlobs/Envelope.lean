import BlindMarket.SealedBlobs.Code

/-!
# Evidence envelopes

The layout of an envelope and its two readers: `pack` and `parse` undo each
other, so an envelope is accepted exactly if it was packed.
-/
namespace SealedBlobs

open Octets

structure EvidenceEnvelope where
  wrappedForAgent : Bytes
  wrappedForEnclave : Bytes
  aesCiphertext : Bytes
  deriving DecidableEq, Repr

namespace Sdk

def magic0 : UInt8 := 0x42

def magic1 : UInt8 := 0x42

def version : UInt8 := 0x01

def headerLen : Nat := 3

def pack (parts : EvidenceEnvelope) : Bytes :=
  [magic0, magic1, version] ++ uint32 parts.wrappedForAgent.length ++ parts.wrappedForAgent ++
    uint32 parts.wrappedForEnclave.length ++ parts.wrappedForEnclave ++ parts.aesCiphertext

def parse (blob : Bytes) : Except Failure EvidenceEnvelope :=
  if blob.length < headerLen + 4 + 4 then
    .error (.crypto "CRYPTO/INTEGRITY_CHECK" s!"envelope too short: {blob.length}")
  else if blob[0]? ≠ some magic0 ∨ blob[1]? ≠ some magic1 then
    .error (.crypto "CRYPTO/INTEGRITY_CHECK" "bad envelope magic")
  else if blob[2]? ≠ some version then
    let found := (blob.getD 2 0).toNat
    .error (.crypto "CRYPTO/UNSUPPORTED_CIPHER" s!"unknown envelope version {found}")
  else
    let off := headerLen
    let agentLen := getUint32 (blob.drop off)
    let off := off + 4
    if off + agentLen + 4 > blob.length then
      .error (.crypto "CRYPTO/INTEGRITY_CHECK" "envelope truncated (agent)")
    else
      let wrappedForAgent := (blob.drop off).take agentLen
      let off := off + agentLen
      let enclaveLen := getUint32 (blob.drop off)
      let off := off + 4
      if off + enclaveLen > blob.length then
        .error (.crypto "CRYPTO/INTEGRITY_CHECK" "envelope truncated (enclave)")
      else
        let wrappedForEnclave := (blob.drop off).take enclaveLen
        let off := off + enclaveLen
        .ok ⟨wrappedForAgent, wrappedForEnclave, blob.drop off⟩

variable (lib : Library)

/-- The random bytes of one sealing: the key, and an IV and a key pair for each use. -/
structure Drawn where
  aesKey : Bytes
  iv : Bytes
  agentEphemeral : Bytes
  agentIv : Bytes
  enclaveEphemeral : Bytes
  enclaveIv : Bytes
  deriving DecidableEq, Repr

def sealEvidence (drawn : Drawn) (evidence : Bytes) (agentPubKey enclavePubKey : Text) : Result := do
  let aesCiphertext ← aesEncrypt lib drawn.iv evidence drawn.aesKey
  let wrappedForAgent ← eciesEncrypt lib drawn.agentEphemeral drawn.agentIv drawn.aesKey agentPubKey
  let wrappedForEnclave ←
    eciesEncrypt lib drawn.enclaveEphemeral drawn.enclaveIv drawn.aesKey enclavePubKey
  return pack ⟨wrappedForAgent, wrappedForEnclave, aesCiphertext⟩

def openEvidenceAsAgent (envelope : Bytes) (agentPrivKey : Text) : Result := do
  let parsed ← parse envelope
  let aesKey ← eciesDecrypt lib parsed.wrappedForAgent agentPrivKey
  aesDecrypt lib parsed.aesCiphertext aesKey

/-! ## The layout -/

variable {blob : Bytes} {parts : EvidenceEnvelope}

theorem length_pack (parts : EvidenceEnvelope) : (pack parts).length =
    11 + parts.wrappedForAgent.length + parts.wrappedForEnclave.length +
      parts.aesCiphertext.length := by
  simp [pack]
  omega

/-- Where the parts of a packed envelope lie. -/
theorem drop_pack (parts : EvidenceEnvelope) :
    (pack parts).drop 3 = uint32 parts.wrappedForAgent.length ++ (parts.wrappedForAgent ++
      (uint32 parts.wrappedForEnclave.length ++ (parts.wrappedForEnclave ++
        parts.aesCiphertext))) := by
  simp [pack]

theorem drop_agent (parts : EvidenceEnvelope) :
    (pack parts).drop 7 = parts.wrappedForAgent ++ (uint32 parts.wrappedForEnclave.length ++
      (parts.wrappedForEnclave ++ parts.aesCiphertext)) := by
  rw [show 7 = 3 + 4 from rfl, ← List.drop_drop, drop_pack]
  exact List.drop_left' rfl

theorem drop_enclaveLen (parts : EvidenceEnvelope) :
    (pack parts).drop (7 + parts.wrappedForAgent.length) =
      uint32 parts.wrappedForEnclave.length ++ (parts.wrappedForEnclave ++ parts.aesCiphertext) := by
  rw [← List.drop_drop, drop_agent]
  exact List.drop_left' rfl

theorem drop_enclave (parts : EvidenceEnvelope) :
    (pack parts).drop (7 + parts.wrappedForAgent.length + 4) =
      parts.wrappedForEnclave ++ parts.aesCiphertext := by
  rw [← List.drop_drop, drop_enclaveLen]
  exact List.drop_left' rfl

theorem parse_pack (hagent : parts.wrappedForAgent.length < 2 ^ 32)
    (henclave : parts.wrappedForEnclave.length < 2 ^ 32) : parse (pack parts) = .ok parts := by
  have hlen := length_pack parts
  have hagentLen : getUint32 ((pack parts).drop 3) = parts.wrappedForAgent.length := by
    rw [drop_pack, getUint32_uint32 hagent]
  have henclaveLen : getUint32 ((pack parts).drop (7 + parts.wrappedForAgent.length)) =
      parts.wrappedForEnclave.length := by
    rw [drop_enclaveLen, getUint32_uint32 henclave]
  have hmagic : (pack parts)[0]? = some magic0 ∧ (pack parts)[1]? = some magic1 ∧
      (pack parts)[2]? = some version := ⟨rfl, rfl, rfl⟩
  have hrest : (pack parts).drop
      (7 + parts.wrappedForAgent.length + 4 + parts.wrappedForEnclave.length) =
      parts.aesCiphertext := by
    rw [← List.drop_drop, drop_enclave]
    exact List.drop_left' rfl
  rw [parse, if_neg (by simp only [headerLen]; omega), if_neg (by simp [hmagic]),
    if_neg (by simp [hmagic])]
  simp only [headerLen, Nat.reduceAdd, hagentLen]
  rw [if_neg (by omega)]
  simp only [henclaveLen]
  rw [if_neg (by omega), hrest, drop_enclave, drop_agent, List.take_left' rfl, List.take_left' rfl]

theorem pack_parse (h : parse blob = .ok parts) : pack parts = blob ∧
    parts.wrappedForAgent.length < 2 ^ 32 ∧ parts.wrappedForEnclave.length < 2 ^ 32 := by
  unfold parse at h
  split at h
  · cases h
  split at h
  · cases h
  split at h
  · cases h
  next hlen hmagic hversion =>
  obtain ⟨agentLen, hagentLen⟩ : ∃ n, getUint32 (blob.drop 3) = n := ⟨_, rfl⟩
  obtain ⟨enclaveLen, henclaveLen⟩ : ∃ n, getUint32 (blob.drop (7 + agentLen)) = n := ⟨_, rfl⟩
  simp only [headerLen, Nat.reduceAdd, hagentLen, henclaveLen] at h hlen
  split at h
  · cases h
  next hagent =>
  split at h
  · cases h
  next henclave =>
  cases h
  have hagentLt : agentLen < 2 ^ 32 := hagentLen ▸ getUint32_lt _
  have henclaveLt : enclaveLen < 2 ^ 32 := henclaveLen ▸ getUint32_lt _
  have hlenAgent : ((blob.drop 7).take agentLen).length = agentLen := by
    rw [List.length_take, List.length_drop]
    omega
  have hlenEnclave : ((blob.drop (7 + agentLen + 4)).take enclaveLen).length = enclaveLen := by
    rw [List.length_take, List.length_drop]
    omega
  have hheader : blob.take 3 = [magic0, magic1, version] := by
    rcases blob with - | ⟨x, - | ⟨y, - | ⟨z, rest⟩⟩⟩
    · simp at hlen
    · simp at hlen
    · simp at hlen
    · simp_all
  refine ⟨?_, by rwa [hlenAgent], by rwa [hlenEnclave]⟩
  have htake : ∀ a b : Nat, (blob.drop a).take b ++ blob.drop (a + b) = blob.drop a := by
    intro a b
    rw [← List.drop_drop, List.take_append_drop]
  simp only [pack, hlenAgent, hlenEnclave]
  rw [← hagentLen, ← henclaveLen, uint32_getUint32 (by rw [List.length_drop]; omega),
    hagentLen, uint32_getUint32 (by rw [List.length_drop]; omega), henclaveLen, ← hheader]
  simp only [List.append_assoc]
  rw [htake (7 + agentLen + 4) enclaveLen, htake (7 + agentLen) 4, htake 7 agentLen, htake 3 4,
    List.take_append_drop]

/-- An envelope is accepted exactly if it is one that was packed, and is read as it was packed. -/
theorem parse_iff_packed (blob : Bytes) (parts : EvidenceEnvelope) :
    parse blob = .ok parts ↔ pack parts = blob ∧ parts.wrappedForAgent.length < 2 ^ 32 ∧
      parts.wrappedForEnclave.length < 2 ^ 32 := by
  constructor
  · exact pack_parse
  · rintro ⟨rfl, hagent, henclave⟩
    exact parse_pack hagent henclave

end Sdk

end SealedBlobs
