import BlindMarket.SealedBlobs.Interop

/-!
# Briefs, results and evidence

What is stored is sealed under a key of its own, and that key is wrapped for
those who may read it. A slice is such a wrapped key, whoever made it: the
poster, or the custody service from a slice of its own.
-/
namespace SealedBlobs

open Checked Octets

variable {lib : Library} {iv priv aesKey : Bytes} {pubHex privHex wrapped : Text}

/-! ## Slices -/

/-- A key that each party unwraps with the private key `priv`. -/
def Slice (lib : Library) (wrapped : Text) (priv aesKey : Bytes) : Prop :=
  ∀ (j : Party) (privHex : Text), j.Reads privHex priv →
    j.eciesDecrypt lib (fromHex wrapped) privHex = .ok aesKey

theorem wrap_slice (hlib : lib.Lawful) (draw : Draw lib) (recipient : KeyPair lib)
    (hpubHex : Spells pubHex recipient.pub) (hne : aesKey ≠ []) (i : Party) : ∃ blob : Bytes,
    i.eciesEncrypt lib draw.priv draw.iv aesKey pubHex = .ok blob ∧
      Slice lib (toHex blob) recipient.priv aesKey := by
  obtain ⟨shared, hexch⟩ := exchange hlib draw.toKeyPair recipient
  have hkey := length_exchangeKey hlib shared
  refine ⟨_, hexch.encrypts hlib hpubHex aesKey i, ?_⟩
  intro j privHex hhex
  have hpos := List.length_pos_iff.2 hne
  have hmin : j.aesMin ≤ (nodeSeal lib draw.iv aesKey (exchangeKey lib shared)).length := by
    rw [length_nodeSeal hlib hkey draw.length_iv, Party.aesMin]
    split <;> omega
  rw [fromHex_toHex, hexch.decrypts hlib j hhex hmin]
  exact (opens_iff hlib j _ _ _).2 ⟨hkey, .inl hne, draw.iv, draw.length_iv, rfl⟩

/-- Custody makes a slice for another of a slice of its own. -/
theorem rewrap_slice (hlib : lib.Lawful) {custody : LocalKeyCustody} {custodyPriv : Bytes}
    (hcustody : custody.privateKeyHex = toHex custodyPriv)
    (hslice : Slice lib wrapped custodyPriv aesKey) (draw : Draw lib) (recipient : KeyPair lib)
    (hpubHex : Spells pubHex recipient.pub) (hne : aesKey ≠ []) : ∃ rewrapped,
    custody.rewrap lib draw.priv draw.iv custody.keyId wrapped pubHex = .ok rewrapped ∧
      Slice lib rewrapped recipient.priv aesKey := by
  obtain ⟨blob, hblob, hslice'⟩ := wrap_slice hlib draw recipient hpubHex hne .backend
  have hopen := hslice .backend _ (.inl hcustody)
  rw [Party.eciesDecrypt] at hopen
  rw [Party.eciesEncrypt] at hblob
  refine ⟨toHex blob, ?_, hslice'⟩
  simp [LocalKeyCustody.rewrap, require, hopen, hblob]

theorem Slice.worker (hslice : Slice lib wrapped priv aesKey) (hprivHex : Spells privHex priv) :
    Worker.eciesDecryptK1 lib (fromHex wrapped) privHex = .ok aesKey :=
  hslice .worker privHex (hprivHex.imp_right fun h => ⟨h, rfl⟩)

theorem Slice.ne_nil (hslice : Slice lib wrapped priv aesKey) : wrapped ≠ [] := by
  rintro rfl
  have hopen := hslice .mcp _ (.inl rfl)
  simp [fromHex, Party.eciesDecrypt, Mcp.eciesDecrypt, require, eciesPubkeyLength] at hopen

/-- A worker with a slice reads the brief. -/
theorem Slice.decryptBrief (hlib : lib.Lawful) (hslice : Slice lib wrapped priv aesKey)
    (hkey : aesKey.length = 32) (hprivHex : Spells privHex priv) (hiv : iv.length = 12)
    (brief : Bytes) :
    Worker.decryptBrief lib (nodeSeal lib iv brief aesKey) wrapped privHex = .ok brief ↔
      brief ≠ [] := by
  rw [Worker.decryptBrief, hslice.worker hprivHex, ok_bind]
  refine (opens_iff hlib .worker _ aesKey brief).trans ?_
  simp only [Party.opensEmpty, Bool.false_eq_true, or_false]
  exact ⟨fun h => h.2.1, fun h => ⟨hkey, h, iv, hiv, rfl⟩⟩

/-- What it stores of a private task is sealed under the task's key. -/
theorem Slice.sealResult (hlib : lib.Lawful) (hslice : Slice lib wrapped priv aesKey)
    (hkey : aesKey.length = 32) (hprivHex : Spells privHex priv) (hpriv : priv ≠ [])
    (hiv : iv.length = 12) (output : Bytes) :
    Worker.sealResultForStorage lib iv output false wrapped privHex =
      .ok (some (nodeSeal lib iv output aesKey)) := by
  have hprivNe : privHex ≠ [] := by
    rcases hprivHex with rfl | rfl
    · obtain ⟨d₁, d₂, rest, heq, -⟩ := toHex_shape hpriv
      rw [heq]
      exact List.cons_ne_nil _ _
    · exact List.cons_ne_nil _ _
  have hseal := aesEncrypt_eq hlib hkey hiv .worker output
  rw [Party.aesEncrypt] at hseal
  simp [Worker.sealResultForStorage, hslice.ne_nil, hprivNe, hslice.worker hprivHex, hseal]

/-- A private task from end to end, with the executor's slice made by custody: the executor reads the
brief, and whoever has the task's key reads the result. Only where there is nothing to read does one
of them fail. -/
theorem custody_serves_latecomer (hlib : lib.Lawful) (sha256Hex : Bytes → Text)
    {custody : LocalKeyCustody} (custodyPair executor : KeyPair lib)
    (hmake : LocalKeyCustody.make lib sha256Hex (toHex custodyPair.priv) = .ok custody)
    (hkey : aesKey.length = 32) {briefIv resultIv : Bytes} (hbriefIv : briefIv.length = 12)
    (hresultIv : resultIv.length = 12) (posterDraw custodyDraw : Draw lib) (poster : Party)
    (hpubHex : Spells pubHex executor.pub) (hprivHex : Spells privHex executor.priv)
    (brief : Bytes) : ∃ (briefBlob custodyBlob : Bytes) (slice : Text),
    poster.aesEncrypt lib briefIv brief aesKey = .ok briefBlob ∧
      poster.eciesEncrypt lib posterDraw.priv posterDraw.iv aesKey custody.publicKeyHex =
        .ok custodyBlob ∧
      custody.rewrap lib custodyDraw.priv custodyDraw.iv custody.keyId (toHex custodyBlob) pubHex =
        .ok slice ∧
      (Worker.decryptBrief lib briefBlob slice privHex = .ok brief ↔ brief ≠ []) ∧
      ∀ output : Bytes, ∃ result : Bytes,
        Worker.sealResultForStorage lib resultIv output false slice privHex = .ok (some result) ∧
          ∀ reader : Party, reader.aesDecrypt lib result aesKey = .ok output ↔
            output ≠ [] ∨ reader.opensEmpty = true := by
  have hne : aesKey ≠ [] := by
    rintro rfl
    cases hkey
  have hcustody : custody.privateKeyHex = toHex custodyPair.priv ∧
      custody.publicKeyHex = toHex custodyPair.pub := by
    simp only [LocalKeyCustody.make, fromHex_toHex, custodyPair.publicKey_priv, orThrown, orElse,
      ok_bind, pure_eq] at hmake
    cases hmake
    exact ⟨rfl, rfl⟩
  obtain ⟨custodyBlob, hcustodyBlob, hcustodySlice⟩ :=
    wrap_slice hlib posterDraw custodyPair (.inl hcustody.2) hne poster
  obtain ⟨slice, hslice, hopens⟩ :=
    rewrap_slice hlib hcustody.1 hcustodySlice custodyDraw executor hpubHex hne
  refine ⟨_, custodyBlob, slice, aesEncrypt_eq hlib hkey hbriefIv poster brief, hcustodyBlob, hslice,
    hopens.decryptBrief hlib hkey hprivHex hbriefIv brief, ?_⟩
  intro output
  refine ⟨_, hopens.sealResult hlib hkey hprivHex executor.priv_ne_nil hresultIv output, ?_⟩
  intro reader
  rw [opens_iff hlib]
  exact ⟨fun h => h.2.1, fun h => ⟨hkey, h, resultIv, hresultIv, rfl⟩⟩

namespace OnRecord

def pair3 : KeyPair library where
  priv := ofNumber 32 3
  pub := (multiple 3).getD []
  length_priv := length_ofNumber _ _
  publicKey_priv := rfl

/-- Custody with the private key 2, its `keyId` the start of the digest of its public key. -/
def custody : LocalKeyCustody where
  privateKeyHex := toHex pair2.priv
  publicKeyHex := toHex pair2.pub
  keyId := toHex (ofNumber 8 0x663c1b408cf896dd)

end OnRecord

theorem custody_serves_latecomer_onRecord : ∃ (briefBlob custodyBlob : Bytes) (slice : Text),
    Party.web.aesEncrypt OnRecord.library OnRecord.iv (ascii "brief") OnRecord.aesKey =
        .ok briefBlob ∧
      Party.web.eciesEncrypt OnRecord.library OnRecord.draw.priv OnRecord.draw.iv OnRecord.aesKey
        OnRecord.custody.publicKeyHex = .ok custodyBlob ∧
      OnRecord.custody.rewrap OnRecord.library OnRecord.draw.priv OnRecord.draw.iv
        OnRecord.custody.keyId (toHex custodyBlob) (toHex OnRecord.pair3.pub) = .ok slice ∧
      (Worker.decryptBrief OnRecord.library briefBlob slice (toHex OnRecord.pair3.priv) =
          .ok (ascii "brief") ↔ ascii "brief" ≠ []) ∧
      ∀ output : Bytes, ∃ result : Bytes,
        Worker.sealResultForStorage OnRecord.library OnRecord.iv output false slice
            (toHex OnRecord.pair3.priv) = .ok (some result) ∧
          ∀ reader : Party, reader.aesDecrypt OnRecord.library result OnRecord.aesKey = .ok output ↔
            output ≠ [] ∨ reader.opensEmpty = true :=
  custody_serves_latecomer OnRecord.lawful (fun _ => toHex (ofNumber 8 0x663c1b408cf896dd))
    OnRecord.pair2 OnRecord.pair3 rfl (length_ofNumber _ _) (length_ofNumber _ _)
    (length_ofNumber _ _) OnRecord.draw OnRecord.draw .web (.inl rfl) (.inl rfl) (ascii "brief")

/-! ## Evidence -/

/-- What an agent opens is an envelope whose key it unwraps and whose evidence was sealed under that
key. -/
theorem openEvidenceAsAgent_iff (hlib : lib.Lawful) (envelope evidence : Bytes) (privHex : Text) :
    Sdk.openEvidenceAsAgent lib envelope privHex = .ok evidence ↔
      ∃ (parts : EvidenceEnvelope) (aesKey iv : Bytes), Sdk.parse envelope = .ok parts ∧
        Sdk.eciesDecrypt lib parts.wrappedForAgent privHex = .ok aesKey ∧ aesKey.length = 32 ∧
          iv.length = 12 ∧ nodeSeal lib iv evidence aesKey = parts.aesCiphertext := by
  have hopens : ∀ blob key : Bytes, Sdk.aesDecrypt lib blob key = .ok evidence ↔
      key.length = 32 ∧ ∃ iv : Bytes, iv.length = 12 ∧ nodeSeal lib iv evidence key = blob := by
    intro blob key
    refine (opens_iff hlib .sdk blob key evidence).trans ?_
    simp [Party.opensEmpty]
  simp only [Sdk.openEvidenceAsAgent, seq_eq_ok, hopens]
  constructor
  · rintro ⟨parts, hparts, aesKey, hslice, hkey, iv, hiv, hseal⟩
    exact ⟨parts, aesKey, iv, hparts, hslice, hkey, hiv, hseal⟩
  · rintro ⟨parts, aesKey, iv, hparts, hslice, hkey, hiv, hseal⟩
    exact ⟨parts, hparts, aesKey, hslice, hkey, iv, hiv, hseal⟩

/-- Sealed evidence is read by the agent, and by the enclave from the other slice. -/
theorem evidence_reaches_both (hlib : lib.Lawful) (hkey : aesKey.length = 32)
    (hiv : iv.length = 12) (agentDraw enclaveDraw : Draw lib) (agent enclave : KeyPair lib)
    {agentHex enclaveHex : Text} (hagentHex : Spells agentHex agent.pub)
    (henclaveHex : Spells enclaveHex enclave.pub) (hprivHex : Spells privHex agent.priv)
    (evidence : Bytes) : ∃ envelope : Bytes,
    Sdk.sealEvidence lib ⟨aesKey, iv, agentDraw.priv, agentDraw.iv, enclaveDraw.priv,
        enclaveDraw.iv⟩ evidence agentHex enclaveHex = .ok envelope ∧
      Sdk.openEvidenceAsAgent lib envelope privHex = .ok evidence ∧
      ∃ parts, Sdk.parse envelope = .ok parts ∧
        Slice lib (toHex parts.wrappedForEnclave) enclave.priv aesKey ∧
        ∀ p : Party, p.aesDecrypt lib parts.aesCiphertext aesKey = .ok evidence ↔
          evidence ≠ [] ∨ p.opensEmpty = true := by
  have hne : aesKey ≠ [] := by
    rintro rfl
    cases hkey
  have hsealed := aesEncrypt_eq hlib hkey hiv .sdk evidence
  obtain ⟨forAgent, hforAgent, hagentSlice⟩ :=
    wrap_slice hlib agentDraw agent hagentHex hne .sdk
  obtain ⟨forEnclave, hforEnclave, henclaveSlice⟩ :=
    wrap_slice hlib enclaveDraw enclave henclaveHex hne .sdk
  rw [Party.aesEncrypt] at hsealed
  have hshort : ∀ (draw : Draw lib) (pair : KeyPair lib) (hex : Text) (blob : Bytes),
      Spells hex pair.pub → Party.sdk.eciesEncrypt lib draw.priv draw.iv aesKey hex = .ok blob →
        blob.length = 125 := by
    intro draw pair hex blob hhex hblob
    obtain ⟨shared, hexch⟩ := exchange hlib draw.toKeyPair pair
    rw [hexch.encrypts hlib hhex aesKey .sdk] at hblob
    cases hblob
    rw [List.length_append, (draw.pub_shape hlib).1,
      length_nodeSeal hlib (length_exchangeKey hlib shared) draw.length_iv, hkey]
  have hparse : Sdk.parse (Sdk.pack ⟨forAgent, forEnclave, nodeSeal lib iv evidence aesKey⟩) =
      .ok ⟨forAgent, forEnclave, nodeSeal lib iv evidence aesKey⟩ := by
    refine Sdk.parse_pack ?_ ?_
    · rw [hshort agentDraw agent _ _ hagentHex hforAgent]
      decide
    · rw [hshort enclaveDraw enclave _ _ henclaveHex hforEnclave]
      decide
  have hunwrap := hagentSlice .sdk privHex (hprivHex.imp_right fun h => ⟨h, rfl⟩)
  rw [fromHex_toHex] at hunwrap
  refine ⟨_, ?_, (openEvidenceAsAgent_iff hlib _ _ _).2
    ⟨_, aesKey, iv, hparse, hunwrap, hkey, hiv, rfl⟩, _, hparse, henclaveSlice, ?_⟩
  · rw [Party.eciesEncrypt] at hforAgent hforEnclave
    simp only [Sdk.sealEvidence, hsealed, hforAgent, hforEnclave, ok_bind, pure_eq]
  · intro p
    rw [opens_iff hlib]
    exact ⟨fun h => h.2.1, fun h => ⟨hkey, h, iv, hiv, rfl⟩⟩

theorem evidence_reaches_both_onRecord : ∃ envelope : Bytes,
    Sdk.sealEvidence OnRecord.library ⟨OnRecord.aesKey, OnRecord.iv, OnRecord.draw.priv,
        OnRecord.draw.iv, OnRecord.draw.priv, OnRecord.draw.iv⟩ (ascii "done")
        (toHex OnRecord.pair2.pub) (toHex OnRecord.pair3.pub) = .ok envelope ∧
      Sdk.openEvidenceAsAgent OnRecord.library envelope (prefix0x (toHex OnRecord.pair2.priv)) =
        .ok (ascii "done") ∧
      ∃ parts, Sdk.parse envelope = .ok parts ∧
        Slice OnRecord.library (toHex parts.wrappedForEnclave) OnRecord.pair3.priv OnRecord.aesKey ∧
        ∀ p : Party, p.aesDecrypt OnRecord.library parts.aesCiphertext OnRecord.aesKey =
          .ok (ascii "done") ↔ ascii "done" ≠ [] ∨ p.opensEmpty = true :=
  evidence_reaches_both OnRecord.lawful (length_ofNumber _ _) (length_ofNumber _ _) OnRecord.draw
    OnRecord.draw OnRecord.pair2 OnRecord.pair3 (.inl rfl) (.inl rfl) (.inr rfl) (ascii "done")

/-! ## Headers of tools -/

/-- A header comes back from its encrypted form unless it is empty, which is encrypted all the
same. -/
theorem sensitive_round_trip (hlib : lib.Lawful) (hiv : iv.length = 12) (value : Bytes)
    (agentPrivateKey : Text) : ∃ encryptedHex,
    Backend.encryptSensitive lib iv value agentPrivateKey = .ok encryptedHex ∧
      (Backend.decryptSensitive lib encryptedHex agentPrivateKey = .ok value ↔ value ≠ []) := by
  have hkey := hlib.sha256_length agentPrivateKey
  have hseal := aesEncrypt_eq hlib hkey hiv .backend value
  rw [Party.aesEncrypt] at hseal
  refine ⟨_, by rw [Backend.encryptSensitive, hseal]; rfl, ?_⟩
  rw [Backend.decryptSensitive, fromHex_toHex]
  refine (opens_iff hlib .backend _ _ value).trans ?_
  simp only [Party.opensEmpty, Bool.false_eq_true, or_false]
  exact ⟨fun h => h.2.1, fun h => ⟨hkey, h, iv, hiv, rfl⟩⟩

theorem sensitive_round_trip_onRecord : ∃ encryptedHex,
    Backend.encryptSensitive OnRecord.library OnRecord.iv (ascii "token")
        (toHex OnRecord.pair2.priv) = .ok encryptedHex ∧
      (Backend.decryptSensitive OnRecord.library encryptedHex (toHex OnRecord.pair2.priv) =
        .ok (ascii "token") ↔ ascii "token" ≠ []) :=
  sensitive_round_trip OnRecord.lawful (length_ofNumber _ _) _ _

end SealedBlobs
