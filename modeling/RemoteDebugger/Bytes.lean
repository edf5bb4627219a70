/-!
# Byte strings

Payloads, memory contents and everything on the wire are lists of bytes.
-/

namespace RemoteDebugger

/-- A byte string, such as the payload of a frame. -/
abbrev Bytes := List UInt8

end RemoteDebugger
