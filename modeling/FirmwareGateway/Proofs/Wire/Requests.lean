import FirmwareGateway.Wire.ChunkRequest

namespace FirmwareGateway
namespace Wire
namespace ChunkRequest

/-!
# Requests octet by octet

A request is read from the last five octets of a datagram, and from them alone: two mark
it, one is its size, and two are its index, the higher first.  A datagram that ends in
any other way holds none.
-/

/-- Each of five octets is read as what stands in its place. -/
theorem decode_trailer (family command size high low : UInt8) :
    chunkRequestLayout.decode [family, command, size, high, low] =
      .ok [.int (UInt32.ofNat family.toNat), .int (UInt32.ofNat command.toNat),
        .int (UInt32.ofNat size.toNat), .int (UInt32.ofNat (low.toNat + 256 * high.toNat))] := rfl

theorem toUInt32_eq_iff {octet other : UInt8} :
    octet.toUInt32 = other.toUInt32 ↔ octet = other := by
  constructor
  · intro same
    rw [← octet.toUInt8_toUInt32, same, other.toUInt8_toUInt32]
  · exact congrArg UInt8.toUInt32

theorem read?_append (lead : Bytes) (family command size high low : UInt8) :
    read? (lead ++ [family, command, size, high, low]) =
      if family = firmwareClass ∧ command = updateGetCommand then
        some ⟨UInt16.ofNat (low.toNat + 256 * high.toNat), size⟩
      else none := by
  have last : ending chunkRequestLayout.fixedLength
      (lead ++ [family, command, size, high, low]) = some [family, command, size, high, low] := by
    have enough : ¬ (lead ++ [family, command, size, high, low]).length <
        chunkRequestLayout.fixedLength := by
      rw [List.length_append]
      exact Nat.not_lt.mpr (Nat.le_add_left 5 _)
    have place : (lead ++ [family, command, size, high, low]).length -
        chunkRequestLayout.fixedLength = lead.length := by
      rw [List.length_append]
      exact Nat.add_sub_cancel lead.length 5
    rw [ending, if_neg enough, place, List.drop_left]
  simp only [read?, last, Option.map_some, decode_trailer, UInt32.ofNat_uInt8ToNat, toUInt32_eq_iff,
    UInt8.toUInt8_toUInt32, UInt32.toUInt16_ofNat']

theorem read?_short {raw : Bytes} (short : raw.length < 5) : read? raw = none := by
  have none : ending chunkRequestLayout.fixedLength raw = none := if_pos short
  rw [read?, none]
  rfl

/-- Octets are too few for a request, or five of them stand behind others. -/
theorem short_or_append (raw : Bytes) :
    raw.length < 5 ∨ ∃ lead family command size high low,
      raw = lead ++ [family, command, size, high, low] := by
  by_cases short : raw.length < 5
  · exact Or.inl short
  · right
    have counted : (raw.drop (raw.length - 5)).length = 5 := by
      rw [List.length_drop]
      exact Nat.sub_sub_self (Nat.not_lt.mp short)
    match behind : raw.drop (raw.length - 5), counted with
    | [family, command, size, high, low], _ =>
      refine ⟨raw.take (raw.length - 5), family, command, size, high, low, ?_⟩
      rw [← behind, List.take_append_drop]

/-- What ends in the octets of a request is read as that request, and nothing else is. -/
theorem read?_eq_some_iff {raw : Bytes} {request : ChunkRequest} :
    read? raw = some request ↔
      ∃ lead high low, raw = lead ++ [0x7a, 0x05, request.size, high, low] ∧
        request.index.toNat = high.toNat * 256 + low.toNat := by
  have word : ∀ high low : UInt8, (UInt16.ofNat (low.toNat + 256 * high.toNat)).toNat =
      high.toNat * 256 + low.toNat := by
    intro high low
    have highBound := high.toNat_lt
    have lowBound := low.toNat_lt
    rw [UInt16.toNat_ofNat_of_lt' (by rw [UInt16.size]; omega)]
    omega
  constructor
  · intro read
    rcases short_or_append raw with short | ⟨lead, family, command, size, high, low, rfl⟩
    · cases (read?_short short).symm.trans read
    · rw [read?_append] at read
      by_cases marks : family = firmwareClass ∧ command = updateGetCommand
      · rw [if_pos marks] at read
        cases read
        rcases marks with ⟨rfl, rfl⟩
        exact ⟨lead, high, low, rfl, word high low⟩
      · rw [if_neg marks] at read
        cases read
  · rintro ⟨lead, high, low, rfl, index⟩
    rw [read?_append, if_pos ⟨rfl, rfl⟩]
    have same : UInt16.ofNat (low.toNat + 256 * high.toNat) = request.index := by
      apply UInt16.toNat_inj.mp
      rw [word, index]
    rw [same]

end ChunkRequest

end Wire
end FirmwareGateway
