import FirmwareGateway.CommandLine.Argument

namespace FirmwareGateway
namespace CommandLine

/-!
# The gateway's commands

Five commands do work: serving bridges with an operator's console, updating a node,
asking a node one of two questions, and taking the checksum of octets.  One more
asks for help.
-/

/-- The arguments that name a node and how it is reached. -/
def nodeArguments : List Argument :=
  [{ name := "node", form := .option (some 'n'), kind := .upTo 65535, valueName := "NODE"
     help := "Z-Wave node id", required := true },
   { name := "port", form := .option none, kind := .upTo 65535, valueName := "PORT"
     help := "Z/IP port on the node", fromEnv := some "ZGW_OTA_PORT", fallback := some "4123" },
   { name := "insecure", form := .flag none, help := "Send without the secure flag" }]

/-- Serving bridges. -/
def serveSpec : CommandSpec where
  name := "serve"
  about := "Accept bridge connections and read operator commands from stdin"
  arguments :=
    [{ name := "listen", form := .option none, kind := .address, valueName := "LISTEN"
       help := "Address to listen on", fromEnv := some "ZGW_OTA_LISTEN"
       fallback := some "0.0.0.0:8000" }]

/-- Updating a node. -/
def updateSpec : CommandSpec where
  name := "ota"
  about := "Transfer a firmware image to a node"
  arguments := nodeArguments ++
    [{ name := "FIRMWARE", form := .positional, kind := .path, valueName := "FIRMWARE"
       help := "Raw firmware image", required := true },
     { name := "vendor-id", form := .option none, kind := .identifier, valueName := "VENDOR_ID"
       help := "Manufacturer id (decimal or 0x-prefixed hex)", fallback := some "0" },
     { name := "firmware-id", form := .option none, kind := .identifier
       valueName := "FIRMWARE_ID", help := "Firmware id (decimal or 0x-prefixed hex)"
       fallback := some "1026" },
     { name := "target", form := .option none, kind := .upTo 255, valueName := "TARGET"
       help := "Firmware target", fallback := some "0" },
     { name := "hw-version", form := .option none, kind := .upTo 255, valueName := "HW_VERSION"
       help := "Hardware version", fallback := some "1" },
     { name := "require-ack", form := .flag none
       help := "Wait for the node to accept the update request" },
     { name := "activate", form := .flag none
       help := "Send Activation Set once the image has gone out" },
     { name := "timeout", form := .option none, kind := .word64, valueName := "TIMEOUT"
       help := "Seconds to wait for each chunk request", fallback := some "30" }]

/-- Asking for firmware metadata. -/
def metadataSpec : CommandSpec where
  name := "md-get"
  about := "Ask a node for its firmware metadata"
  arguments := nodeArguments

/-- Asking for the version of the application. -/
def versionSpec : CommandSpec where
  name := "version-get"
  about := "Ask a node for its version"
  arguments := nodeArguments

/-- Taking a checksum. -/
def checksumSpec : CommandSpec where
  name := "checksum"
  about := "Print the CRC-16 of a hex string"
  arguments :=
    [{ name := "DATA", form := .positional, kind := .text, valueName := "DATA"
       help := "Hex encoded bytes", required := true }]

/-- All commands. -/
def specs : List CommandSpec :=
  [serveSpec, updateSpec, metadataSpec, versionSpec, checksumSpec, .helpCommand]

end CommandLine
end FirmwareGateway
