import Mathlib.Data.List.Induction
import Runsheet.Proofs.Plan.Reading

/-! Plans that are read from a file and written again. A reader takes any well-formed body, so a plan
comes back as the file it was read from, with the digest it was read with, exactly when that file
holds the canonical form of the plan. Every other file is brought into that form by writing it. -/
namespace Runsheet

namespace Cbor

/-- A number is written in as many bytes as it was read from. -/
theorem bigEndian_number (t : Text) : bigEndian t.length (number t) = t := by
  induction t using List.reverseRecOn with
  | nil => rfl
  | append_singleton t b ih =>
      have hByte : b.toNat < 256 := b.toNat_lt
      have hQuotient : (number t * 256 + b.toNat) / 256 = number t := by omega
      have hRemainder : (number t * 256 + b.toNat) % 256 = b.toNat := by omega
      rw [List.length_append, List.length_singleton, bigEndian, number_append, hQuotient, hRemainder,
        ih]
      simp

end Cbor

namespace Plan

open Cbor

variable {p : Plan} {f digest rest : Text}

/-- Bytes are got back from the number they spell, as many of them as there were, zeros at the end
included. -/
theorem littleEndian_number (t : Text) : littleEndian t.length (number t.reverse) = t := by
  have hReversed := bigEndian_number t.reverse
  rw [List.length_reverse] at hReversed
  rw [littleEndian, hReversed, List.reverse_reverse]

/-- The parts of a preamble and what stands after it. -/
theorem preamble_parts (f : Text) :
    f = f.take 4 ++ (f.drop 4).take 2 ++ (f.drop 6).take 4 ++ f.drop 10 := by
  have hLast : (f.drop 6).take 4 ++ f.drop 10 = f.drop 6 := by
    simpa using List.take_append_drop 4 (f.drop 6)
  have hMiddle : (f.drop 4).take 2 ++ f.drop 6 = f.drop 4 := by
    simpa using List.take_append_drop 2 (f.drop 4)
  rw [List.append_assoc, hLast, List.append_assoc, hMiddle, List.take_append_drop]

/-- A file with the magic bytes, the version and a size is a preamble and what is left over. -/
theorem eq_preamble (hLong : 10 ≤ f.length) (hMagic : f.take 4 = magic)
    (hVersion : number ((f.drop 4).take 2).reverse = version) :
    f = preamble (number ((f.drop 6).take 4).reverse) ++ f.drop 10 := by
  have hVersionBytes : littleEndian 2 version = (f.drop 4).take 2 := by
    have hRead := littleEndian_number ((f.drop 4).take 2)
    rwa [hVersion, List.length_take, List.length_drop, Nat.min_eq_left (by omega)] at hRead
  have hSizeBytes : littleEndian 4 (number ((f.drop 6).take 4).reverse) = (f.drop 6).take 4 := by
    have hRead := littleEndian_number ((f.drop 6).take 4)
    rwa [List.length_take, List.length_drop, Nat.min_eq_left (by omega)] at hRead
  rw [preamble, hVersionBytes, hSizeBytes, ← hMagic]
  exact preamble_parts f

/-- A file that is read is a preamble, a body of the size told there, and what is left over. -/
theorem ofFile_eq_ok (h : ofFile f = .ok ⟨p, digest, rest⟩) :
    ∃ body, f = preamble body.length ++ body ++ rest ∧ body.length ≤ maxBodySize ∧
      ofBody? body = some p ∧ digest = Blake2b.sum256 body := by
  simp only [ofFile] at h
  split at h
  · cases h
  rename_i hShort
  split at h
  · cases h
  rename_i hMagic
  split at h
  · cases h
  rename_i hVersion
  split at h
  · cases h
  rename_i hSize
  split at h
  · cases h
  rename_i hBody
  split at h
  · cases h
  rename_i hPlan
  cases h
  have hFile := eq_preamble (Nat.not_lt.mp hShort) (by simpa using hMagic) (by simpa using hVersion)
  have hLength : ((f.drop 10).take (number ((f.drop 6).take 4).reverse)).length =
      number ((f.drop 6).take 4).reverse := List.length_take_of_le (Nat.not_lt.mp hBody)
  refine ⟨_, ?_, ?_, hPlan, rfl⟩
  · rw [hLength, List.append_assoc, List.take_append_drop]
    exact hFile
  · rw [hLength]
    exact Nat.not_lt.mp hSize

/-- When a plan is written. -/
theorem exists_toFile_iff (p : Plan) :
    (∃ f, p.toFile = .ok f) ↔ p.size ≤ maxCommands ∧ p.body.length ≤ maxBodySize := by
  constructor
  · rintro ⟨f, hFile⟩
    obtain ⟨hSize, hLength, -⟩ := toFile_eq_ok hFile
    exact ⟨hSize, hLength⟩
  · rintro ⟨hSize, hLength⟩
    have hCanonical : p.canonical = .ok p.body := if_neg (Nat.not_lt.mpr hSize)
    refine ⟨preamble p.body.length ++ p.body, ?_⟩
    rw [toFile, hCanonical]
    exact if_neg (Nat.not_lt.mpr hLength)

/-- The digest of a plan that is written is the hash of its body. -/
theorem digest_of_toFile (hFile : p.toFile = .ok f) : p.digest = .ok (Blake2b.sum256 p.body) := by
  obtain ⟨-, -, hCanonical, -⟩ := toFile_eq_ok hFile
  rw [Plan.digest, hCanonical]
  rfl

/-- The length that stands before a body determines where it starts, so equal files have equal
bodies. -/
theorem append_preamble_inj {body body' : Text}
    (h : preamble body.length ++ body = preamble body'.length ++ body') : body = body' :=
  List.append_inj_right h (by simp)

/-- What becomes of a plan that is read from a file and written again. It is the same file with the
same digest exactly when the body that was read is the canonical form of the plan, and there are not
too many commands. It is written at all when the plan keeps within the limits of a writer, which the
reader does not ask for; then the new file holds the same plan, under the digest of the plan. So
another body keeps its digest only where the hash has one value for two bodies. -/
theorem toFile_of_ofFile (hRead : ofFile f = .ok ⟨p, digest, rest⟩) :
    ∃ body, f = preamble body.length ++ body ++ rest ∧ digest = Blake2b.sum256 body ∧
      ((∃ f', p.toFile = .ok f' ∧ f = f' ++ rest ∧ p.digest = .ok digest) ↔
        body = p.body ∧ p.size ≤ maxCommands) ∧
      ((∃ f', p.toFile = .ok f') ↔ p.size ≤ maxCommands ∧ p.body.length ≤ maxBodySize) ∧
      ∀ f', p.toFile = .ok f' →
        ofFile (f' ++ rest) = .ok ⟨p, Blake2b.sum256 p.body, rest⟩ ∧
          p.digest = .ok (Blake2b.sum256 p.body) ∧
          (p.digest = .ok digest →
            f = f' ++ rest ∨ body ≠ p.body ∧ Blake2b.sum256 body = Blake2b.sum256 p.body) := by
  obtain ⟨body, rfl, hLength, hBody, rfl⟩ := ofFile_eq_ok hRead
  have hReadable : p.Readable := readable_ofBody? hBody
  refine ⟨body, rfl, rfl, ⟨?_, ?_⟩, exists_toFile_iff p, ?_⟩
  · rintro ⟨f', hFile, hSame, -⟩
    obtain ⟨hSize, -, -, rfl⟩ := toFile_eq_ok hFile
    exact ⟨append_preamble_inj (List.append_cancel_right hSame), hSize⟩
  · rintro ⟨rfl, hSize⟩
    obtain ⟨f', hFile⟩ := (exists_toFile_iff p).mpr ⟨hSize, hLength⟩
    obtain ⟨-, -, -, rfl⟩ := toFile_eq_ok hFile
    exact ⟨_, hFile, rfl, digest_of_toFile hFile⟩
  · intro f' hFile
    have hDigest := digest_of_toFile hFile
    obtain ⟨hSize, hWritten, -, rfl⟩ := toFile_eq_ok hFile
    refine ⟨?_, hDigest, fun hKept => ?_⟩
    · have hEnough : ¬ (p.body ++ rest).length < p.body.length := by simp
      rw [List.append_assoc, ofFile_preamble hWritten, if_neg hEnough, List.take_left, List.drop_left,
        p.ofBody?_body hSize hWritten (fun c hc => (hReadable c hc).2) fun c hc => (hReadable c hc).1,
        Option.elim_some]
    · by_cases hSame : body = p.body
      · exact Or.inl (by rw [hSame])
      · exact Or.inr ⟨hSame, Except.ok.inj (hKept.symm.trans hDigest)⟩

/-- A body with a longer head than its empty list of commands needs. -/
def paddedBody : Text := [0xa1, 0x01, 0x98, 0x00]

/-- A head that is longer than need be is accepted by the reader, and the digest is that of the
bytes as they stand. -/
theorem ofFile_paddedBody : ofFile (preamble paddedBody.length ++ paddedBody) =
    .ok ⟨⟨some []⟩, Blake2b.sum256 paddedBody, []⟩ := by
  have hParse : Cbor.parse paddedBody = some (.map [(.unsigned 1, .array [])]) := by cbv
  have hBody : ofBody? paddedBody = some ⟨some []⟩ := by
    rw [ofBody?, hParse]
    rfl
  rw [ofFile_preamble (by decide), if_neg (Nat.lt_irrefl _), List.take_length, List.drop_length,
    hBody]
  rfl

/-- Read and written again, the plan gets the short head, and with it another digest. -/
theorem toFile_of_ofFile_paddedBody :
    ofFile (preamble paddedBody.length ++ paddedBody) =
        .ok ⟨⟨some []⟩, Blake2b.sum256 paddedBody, []⟩ ∧
      ∃ f', toFile ⟨some []⟩ = .ok f' ∧
        ofFile f' = .ok ⟨⟨some []⟩, Blake2b.sum256 (body ⟨some []⟩), []⟩ := by
  obtain ⟨padded, -, -, -, hWritten, hAgain⟩ := toFile_of_ofFile ofFile_paddedBody
  obtain ⟨f', hFile⟩ := hWritten.mpr ⟨by decide, by decide⟩
  obtain ⟨hRead, -⟩ := hAgain f' hFile
  rw [List.append_nil] at hRead
  exact ⟨ofFile_paddedBody, f', hFile, hRead⟩

/-- A file may be read with another digest than that of its plan. -/
theorem not_toFile_of_ofFile_paddedBody :
    ¬ ∀ f p digest rest, ofFile f = .ok ⟨p, digest, rest⟩ →
      ∃ f', p.toFile = .ok f' ∧ p.digest = .ok digest := by
  intro h
  obtain ⟨f', hFile, hDigest⟩ := h _ _ _ _ ofFile_paddedBody
  have hHashes : Blake2b.sum256 (body ⟨some []⟩) ≠ Blake2b.sum256 paddedBody := by decide +kernel
  exact hHashes (Except.ok.inj ((digest_of_toFile hFile).symm.trans hDigest))

end Plan

end Runsheet
