import DeclGraph.Extract.File
import DeclGraph.Wire.Entity

/-! The JSON form of what is found in a file. -/
namespace DeclGraph.Extract

def Definition.toJson (definition : Definition) : Json :=
  .ofFields [
    ("symbol", some (.str definition.symbol)),
    ("kind", some definition.kind.toJson),
    ("start_line", some (.ofWord definition.startLine)),
    ("end_line", some (.ofWord definition.endLine)),
    ("source", definition.source.map .str),
    ("parents", some (.ofList Parent.toJson definition.parents))]

def ImplBlock.toJson (block : ImplBlock) : Json :=
  .obj [
    ("subject", .str block.subject),
    ("line", .ofWord block.line),
    ("parents", .ofList Parent.toJson block.parents)]

def CallSite.toJson (call : CallSite) : Json :=
  .ofFields [
    ("caller", some (.ofNat call.caller)),
    ("callee", some (.str call.callee)),
    ("line", some (.ofWord call.line)),
    ("snippet", call.snippet.map .str)]

def FileFacts.toJson (facts : FileFacts) : Json :=
  .obj [
    ("filename", .str facts.filename),
    ("language", facts.language.toJson),
    ("declarations", .ofList Definition.toJson facts.definitions),
    ("impls", .ofList ImplBlock.toJson facts.impls),
    ("calls", .ofList CallSite.toJson facts.calls)]

end DeclGraph.Extract
