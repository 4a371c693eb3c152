import LinkDump.Proofs.CommandAgreement

/-! # Inspected records
Inspecting a dump prints its records, the meta fields and then the links, each on a line of its own.
A limit stops it before it asks for another link, so what it prints are the first of all records
that decoding gives, and an error behind the last of them is not met. -/

namespace LinkDump

/-! ## Lines of a listing -/

namespace Decoded

end Decoded

/-! ## What inspecting prints -/

namespace CommandLine

section

variable {dialect : Dialect} {source : Source} {cursor : Cursor}

end

end CommandLine

end LinkDump
