import WafRules.Text.Keyword

/-!
# Transformations

Before a rule compares a value it may transform it.  Transformations are recorded in the order
of the rule and never applied here.
-/

namespace WafRules

/-- A transformation of a value.  `reset` drops every transformation before it, inherited ones
included; whoever builds the chain of a rule has to apply it. -/
inductive Transform
  | base64Decode | base64DecodeExt | base64Encode | cmdLine | compressWhitespace | cssDecode
  | escapeSeqDecode | hexDecode | hexEncode | htmlEntityDecode | jsDecode | length | lowercase
  | md5 | reset | normalizePath | normalizePathWin | removeComments | removeCommentsChar
  | removeNulls | removeWhitespace | replaceComments | replaceNulls | sha1 | sqlHexDecode
  | trim | trimLeft | trimRight | uppercase | urlDecode | urlDecodeUni | urlEncode
  | utf8ToUnicode
  deriving DecidableEq, Repr

namespace Transform

/-- The canonical name. -/
def name : Transform → String
  | base64Decode => "base64Decode"
  | base64DecodeExt => "base64DecodeExt"
  | base64Encode => "base64Encode"
  | cmdLine => "cmdLine"
  | compressWhitespace => "compressWhitespace"
  | cssDecode => "cssDecode"
  | escapeSeqDecode => "escapeSeqDecode"
  | hexDecode => "hexDecode"
  | hexEncode => "hexEncode"
  | htmlEntityDecode => "htmlEntityDecode"
  | jsDecode => "jsDecode"
  | length => "length"
  | lowercase => "lowercase"
  | md5 => "md5"
  | reset => "none"
  | normalizePath => "normalizePath"
  | normalizePathWin => "normalizePathWin"
  | removeComments => "removeComments"
  | removeCommentsChar => "removeCommentsChar"
  | removeNulls => "removeNulls"
  | removeWhitespace => "removeWhitespace"
  | replaceComments => "replaceComments"
  | replaceNulls => "replaceNulls"
  | sha1 => "sha1"
  | sqlHexDecode => "sqlHexDecode"
  | trim => "trim"
  | trimLeft => "trimLeft"
  | trimRight => "trimRight"
  | uppercase => "uppercase"
  | urlDecode => "urlDecode"
  | urlDecodeUni => "urlDecodeUni"
  | urlEncode => "urlEncode"
  | utf8ToUnicode => "utf8toUnicode"

/-- Every transformation, once. -/
def all : List Transform :=
  [base64Decode, base64DecodeExt, base64Encode, cmdLine, compressWhitespace, cssDecode,
    escapeSeqDecode, hexDecode, hexEncode, htmlEntityDecode, jsDecode, length, lowercase, md5,
    reset, normalizePath, normalizePathWin, removeComments, removeCommentsChar, removeNulls,
    removeWhitespace, replaceComments, replaceNulls, sha1, sqlHexDecode, trim, trimLeft,
    trimRight, uppercase, urlDecode, urlDecodeUni, urlEncode, utf8ToUnicode]

/-- The names with their transformations; two have a second spelling. -/
def spellings : List (String × Transform) :=
  all.map (fun t => (t.name, t)) ++
    [("normalisePath", normalizePath), ("normalisePathWin", normalizePathWin)]

/-- The transformation of a name. -/
def ofName? (text : String) : Option Transform := Text.lookup? spellings text

end Transform

end WafRules
