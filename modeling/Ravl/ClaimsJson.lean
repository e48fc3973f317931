import Ravl.Oe.ClaimsJson
import Ravl.SevSnp.ClaimsJson

/-!
# Which claims survive JSON
-/

namespace Ravl
open ByteLib FallibleLib

/-- Claims come back exactly when their source is that of their class and, for Open Enclave, the
SGX claims are there. -/
theorem claims_roundTrip_iff (dbl : Doubles) :
    (∀ c : ClaimsObject Sgx.Claims, c.fields.Fits →
      (RoundTrips (recordSerializer (Sgx.claimsFields dbl)) .sgx c ↔ c.source = .sgx)) ∧
    (∀ c : ClaimsObject SevSnp.Claims, c.fields.Fits →
      (RoundTrips (recordSerializer (SevSnp.claimsFields dbl)) .sevSnp c ↔ c.source = .sevSnp)) ∧
    ∀ (unset : Sgx.Claims) (c : ClaimsObject Oe.ClaimsFields), c.fields.Fits →
      (RoundTrips (recordSerializer (Oe.claimsFields dbl unset)) .openEnclave c ↔
        (∃ sgx, c.fields.sgxClaims = some sgx ∧ sgx.source = .sgx) ∧ c.source = .openEnclave) :=
  ⟨Sgx.roundTrips_iff dbl, SevSnp.roundTrips_iff dbl, Oe.roundTrips_iff dbl⟩

/-! Claims read from memory that counts its addresses -/

def counting (i : ℕ) : Byte := Fin.ofNat 256 (i + 1)

def countedSgxClaims : ClaimsObject Sgx.Claims where
  source := .sgx
  fields := { Sgx.makeClaims counting counting (Sgx.placedData 3 []) with
    endorsements := { Sgx.Endorsements.unset counting with
      rootCa := text "root", pckCrl := text "crl", qeIdentity := text "identity" } }

theorem countedSgxClaims_fits : countedSgxClaims.fields.Fits := by
  have hcounted := Sgx.makeClaims_fits counting counting (Sgx.placedData 3 []) rfl rfl rfl
  have hnumbers := hcounted.endorsements
  exact { hcounted with
    endorsements := ⟨hnumbers.majorVersion, hnumbers.minorVersion, hnumbers.teeType⟩ }

def countedTcb (start : ℕ) : SevSnp.TCBVersion := SevSnp.readTcbVersion counting start

def countedSevSnpClaims : ClaimsObject SevSnp.Claims where
  source := .sevSnp
  fields := {
    version := 2, guestSvn := 3, policy := 0x3001F, familyId := readMem counting 0 16
    imageId := readMem counting 16 16, vmpl := 1, signatureAlgo := 1, platformVersion := countedTcb 0
    platformInfo := 5, flags := 7, reportData := readMem counting 32 64
    measurement := readMem counting 96 48, hostData := readMem counting 144 32
    idKeyDigest := readMem counting 176 48, authorKeyDigest := readMem counting 8 48
    reportId := readMem counting 24 32, reportIdMa := readMem counting 40 32, reportedTcb := countedTcb 8
    chipId := readMem counting 56 64, committedTcb := countedTcb 16, currentMinor := 51
    currentBuild := 6, currentMajor := 1, committedBuild := 4, committedMinor := 49
    committedMajor := 1, launchTcb := countedTcb 24
    signature := ⟨readMem counting 72 72, readMem counting 144 72⟩
    endorsements := ⟨text "root", text "chain", some (text "crl")⟩ }

def countedCustomClaims : Oe.CustomClaims :=
  (Oe.CustomClaims.empty.emplace (text "b") [2, 0]).emplace (text "a") [1]

def countedOeClaims : ClaimsObject Oe.ClaimsFields :=
  ⟨.openEnclave, ⟨some countedSgxClaims, countedCustomClaims⟩⟩

theorem countedSevSnpClaims_fits : countedSevSnpClaims.fields.Fits where
  version := by decide
  guestSvn := by decide
  policy := by decide
  familyId := readMem_length ..
  imageId := readMem_length ..
  vmpl := by decide
  signatureAlgo := by decide
  platformInfo := by decide
  flags := by decide
  reportData := readMem_length ..
  measurement := readMem_length ..
  hostData := readMem_length ..
  idKeyDigest := readMem_length ..
  authorKeyDigest := readMem_length ..
  reportId := readMem_length ..
  reportIdMa := readMem_length ..
  chipId := readMem_length ..
  signature := ⟨readMem_length .., readMem_length ..⟩

theorem countedOeClaims_fits : countedOeClaims.fields.Fits := by
  intro sgx hsgx
  cases hsgx
  exact countedSgxClaims_fits

theorem claims_roundTrip_iff_sample :
    (RoundTrips (recordSerializer (Sgx.claimsFields plainHost.doubles)) .sgx countedSgxClaims ↔
      countedSgxClaims.source = .sgx) ∧
    (RoundTrips (recordSerializer (SevSnp.claimsFields plainHost.doubles)) .sevSnp countedSevSnpClaims ↔
      countedSevSnpClaims.source = .sevSnp) ∧
    (RoundTrips (recordSerializer (Oe.claimsFields plainHost.doubles countedSgxClaims.fields))
        .openEnclave countedOeClaims ↔
      (∃ sgx, countedOeClaims.fields.sgxClaims = some sgx ∧ sgx.source = .sgx) ∧
        countedOeClaims.source = .openEnclave) := by
  obtain ⟨hsgx, hsevSnp, hoe⟩ := claims_roundTrip_iff plainHost.doubles
  exact ⟨hsgx countedSgxClaims countedSgxClaims_fits, hsevSnp countedSevSnpClaims countedSevSnpClaims_fits,
    hoe countedSgxClaims.fields countedOeClaims countedOeClaims_fits⟩

def nullOeClaims : ClaimsObject Oe.ClaimsFields := ⟨.openEnclave, ⟨none, .empty⟩⟩

/-- The null that was written for a null pointer is read as an object. -/
theorem nullOeClaims_throws (unset : Sgx.Claims) (old : Oe.ClaimsFields) :
    (recordSerializer (Oe.claimsFields plainHost.doubles unset)).fromJson
        ((recordSerializer (Oe.claimsFields plainHost.doubles unset)).toJson nullOeClaims.fields) old =
      .error (.exception "[json.exception.type_error.304] cannot use at() with null") := by
  rw [Oe.readClaims_eq]
  rfl

theorem nullOeClaims_lost :
    ¬ ∀ (dbl : Doubles) (unset : Sgx.Claims) (c : ClaimsObject Oe.ClaimsFields), c.fields.Fits →
      c.source = .openEnclave → (∀ sgx ∈ c.fields.sgxClaims, sgx.source = .sgx) →
        RoundTrips (recordSerializer (Oe.claimsFields dbl unset)) .openEnclave c := by
  intro h
  have hfits : nullOeClaims.fields.Fits := by
    intro sgx hsgx
    cases hsgx
  have hlost := h plainHost.doubles countedSgxClaims.fields nullOeClaims hfits rfl (by
    intro sgx hsgx
    cases hsgx)
  obtain ⟨fields, hfields, -⟩ := (bind_ok _ _ _).1 (hlost nullOeClaims.fields)
  have hthrows := nullOeClaims_throws countedSgxClaims.fields nullOeClaims.fields
  cases hthrows.symm.trans hfields

end Ravl
