import FirmwareGateway.Main
import FirmwareGateway.Operator.Bench
import FirmwareGateway.Proofs.Wire.Octets
import FirmwareGateway.Proofs.Relay.Framing
import FirmwareGateway.Proofs.Relay.Serving
import FirmwareGateway.Proofs.Relay.WholeFile
import FirmwareGateway.Proofs.Update.Waiting
import FirmwareGateway.Proofs.Update.Delivery
import FirmwareGateway.Proofs.Update.Serving
import FirmwareGateway.Proofs.Chunks
import FirmwareGateway.Proofs.Update.Completion
import FirmwareGateway.Proofs.Update.WholeImage
import FirmwareGateway.Proofs.Update.Acceptance
import FirmwareGateway.Proofs.Update.RunTrace
import FirmwareGateway.Proofs.Relay.Endings
import FirmwareGateway.Proofs.Relay.Interruption
import FirmwareGateway.Proofs.Wire.Places
import FirmwareGateway.Proofs.Wire.Bijection
import FirmwareGateway.Proofs.Bridge.Steps
import FirmwareGateway.Proofs.Bridge.Registration
import FirmwareGateway.Proofs.Bridge.Exclusive
import FirmwareGateway.Proofs.Update.History
import FirmwareGateway.Proofs.Update.Numbering
import FirmwareGateway.Proofs.Bridge.Intake
import FirmwareGateway.Proofs.Digest
import FirmwareGateway.Proofs.Relay.Reception
import FirmwareGateway.Proofs.Relay.Finishing
import FirmwareGateway.Proofs.Relay.Survey
import FirmwareGateway.Proofs.Bridge.Carried
import FirmwareGateway.Proofs.Operator.Relaying
import FirmwareGateway.Proofs.Bridge.Order
import FirmwareGateway.Proofs.Bridge.Sharing
import FirmwareGateway.Proofs.Update.Listening
import FirmwareGateway.Proofs.Update.Answering
import FirmwareGateway.Proofs.Update.Pacing
import FirmwareGateway.Proofs.Checksum.Remainder
import FirmwareGateway.Proofs.Checksum.Detection
import FirmwareGateway.Proofs.Wire.Sealing
import FirmwareGateway.Proofs.Update.Mistaking
import FirmwareGateway.Proofs.Relay.Boundaries
import FirmwareGateway.Proofs.Relay.Delimiting
import FirmwareGateway.Proofs.Relay.Decoding
import FirmwareGateway.Proofs.Bridge.Keeping
import FirmwareGateway.Proofs.Operator.Selection
import FirmwareGateway.Proofs.Wire.Stopping
import FirmwareGateway.Proofs.Update.Failing
import FirmwareGateway.Proofs.Text.Words
import FirmwareGateway.Proofs.Text.Numerals
import FirmwareGateway.Proofs.Text.Hexadecimal
import FirmwareGateway.Proofs.Operator.Console
import FirmwareGateway.Proofs.Operator.Forwarding
