import FirmwareGateway.Wire.Command

namespace FirmwareGateway
namespace Wire

/-!
# Update reports

A report carries one chunk of an image.  Its number has fifteen bits; the
sixteenth marks the last report.  Behind the chunk stands the checksum of
everything before it, so the checksum of a whole report is zero.
-/

/-- The layout of a report up to its checksum. -/
def reportLayout : Layout where
  name := "firmware update report"
  lead := [firmwareClass, 0x06]
  fields := [⟨"report_number", .word .u16be⟩, ⟨"data", .tail⟩]

/-- The largest number of a report. -/
def maxReportNumber : Nat := 0x7fff

/-- The bit that marks the last report. -/
def lastBit : UInt32 := 0x8000

/-- A report with its chunk. -/
structure Report where
  number : UInt16
  last : Bool
  chunk : Bytes
  deriving DecidableEq, Repr

namespace Report

/-- What the fields of a report hold. -/
def values (report : Report) : List Value :=
  [.int (report.number.toUInt32 ||| (if report.last then lastBit else 0)), .bytes report.chunk]

/-- An octet string with its checksum behind it. -/
def sealed (bytes : Bytes) : Bytes :=
  bytes ++ Bytes.bigEndian 2 (Checksum.ofBytes bytes).toNat

/-- The octets of a report.  The number is looked at before the length of the
chunk. -/
def encode (report : Report) : Except Error Bytes :=
  if report.number.toNat > maxReportNumber then
    .error (.fieldOverflow "report_number" report.number.toUInt32)
  else if report.chunk.length > Image.chunkSize then
    .error (.protocol (.reportData report.chunk.length Image.chunkSize))
  else
    (reportLayout.encode report.values).map sealed

end Report

end Wire
end FirmwareGateway
