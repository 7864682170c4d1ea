import WafRules.Document
import WafRules.Json

/-!
# Dumping documents

A document is dumped as JSON.  A choice without a value is written as its name, and one with a
value as an object whose only field is named for the choice.  A field that a value may lack is
left out when it does, except for the collection of a reference, which is then null.
-/

namespace WafRules

/-- A choice with its value. -/
def Json.choice (name : String) (value : Json) : Json := .object [(name, value)]

/-- Fields that are written only if there is a value. -/
def Json.optionalField {α : Type} (name : String) (toJson : α → Json) :
    Option α → List (String × Json)
  | none => []
  | some value => [(name, toJson value)]

/-- The dump of a position. -/
def Position.toJson (p : Position) : Json :=
  .object (Json.optionalField "file" .text p.file ++
    [("line", .number p.line), ("column", .number p.column)])

/-- The dump of a reference. -/
def MacroRef.toJson (m : MacroRef) : Json :=
  .object [("collection", (m.collection.map Json.text).getD .null), ("variable", .text m.name)]

/-- The dump of a piece of a text. -/
def StringPart.toJson : StringPart → Json
  | .literal text => .choice "Literal" (.text text)
  | .reference m => .choice "Macro" m.toJson

/-- The dump of a text with references. -/
def ExpandableString.toJson (s : ExpandableString) : Json :=
  .object [("parts", .list (s.parts.map StringPart.toJson))]

/-- The dump of a variable is its name. -/
def Variable.toJson (v : Variable) : Json := .text v.name

/-- The dump of a member pattern. -/
def MemberPattern.toJson : MemberPattern → Json
  | .key text => .choice "Key" (.text text)
  | .regex pattern => .choice "Regex" (.text pattern)

/-- The dump of a selector. -/
def Selector.toJson (s : Selector) : Json :=
  .object ([("operation", .text s.mode.name), ("variable", s.subject.toJson)] ++
    Json.optionalField "selector" MemberPattern.toJson s.member ++
    [("position", s.position.toJson)])

/-- The dump of a network shows the number of leading bits even of a single address. -/
def Network.toJson (n : Network) : Json := .text n.renderFull

/-- The dump of a range from `first` to `last`. -/
def Json.range (first last : Nat) : Json :=
  .object [("start", .number first), ("end", .number last)]

/-- The dump of a byte range. -/
def ByteRange.toJson (r : ByteRange) : Json := Json.range r.first r.last

/-- The dump of a range of rule ids. -/
def IdRange.toJson (r : IdRange) : Json := Json.range r.first r.last

/-- The name of a comparison in a dump. -/
def Comparison.dumpName : Comparison → String
  | .beginsWith => "BeginsWith"
  | .contains => "Contains"
  | .containsWord => "ContainsWord"
  | .endsWith => "EndsWith"
  | .streq => "Streq"
  | .within => "Within"
  | .eq => "Eq"
  | .ge => "Ge"
  | .gt => "Gt"
  | .le => "Le"
  | .lt => "Lt"

/-- The name of a detector in a dump. -/
def Detector.dumpName : Detector → String
  | .geoLookup => "GeoLookup"
  | .urlEncoding => "ValidateUrlEncoding"
  | .utf8Encoding => "ValidateUtf8Encoding"
  | .sqlInjection => "DetectSqli"
  | .scriptInjection => "DetectXss"
  | .always => "UnconditionalMatch"
  | .never => "NoMatch"

/-- The dump of an operator without its place. -/
def Operator.Kind.toJson : Operator.Kind → Json
  | .regex pattern => .choice "Regex" (.text pattern)
  | .compare how argument => .choice how.dumpName argument.toJson
  | .phrases words => .choice "Pm" (.list (words.map .text))
  | .phraseFiles files => .choice "PmFromFile" (.list (files.map .text))
  | .addresses networks => .choice "IpMatch" (.list (networks.map Network.toJson))
  | .addressFile file => .choice "IpMatchFromFile" (.text file)
  | .blockList host => .choice "Rbl" (.text host)
  | .byteRanges ranges => .choice "ValidateByteRange" (.list (ranges.map ByteRange.toJson))
  | .detect what => .text what.dumpName

/-- The dump of an operator. -/
def Operator.toJson (o : Operator) : Json :=
  .object [("kind", o.kind.toJson), ("negated", .bool o.negated),
    ("position", o.position.toJson)]

/-- The dump of audit log parts. -/
def AuditLogPart.listToJson (parts : List AuditLogPart) : Json :=
  .list (parts.map fun part => .text part.name)

/-- The value of a control option in a dump. -/
def CtlOption.valueToJson : CtlOption → Json
  | .auditEngine mode => .text mode.name
  | .auditLogParts change parts =>
    .object [("op", .text change.name), ("parts", AuditLogPart.listToJson parts)]
  | .forceRequestBodyVariable enabled | .requestBodyAccess enabled => .bool enabled
  | .requestBodyProcessor processor => .text processor.name
  | .ruleEngine mode => .text mode.name
  | .ruleRemoveById ids => ids.toJson
  | .ruleRemoveByTag tag => .text tag
  | .ruleRemoveTargetById ids target =>
    .object [("ids", ids.toJson), ("target", target.toJson)]
  | .ruleRemoveTargetByTag tag target =>
    .object [("tag", .text tag), ("target", target.toJson)]

/-- The dump of a control option. -/
def CtlOption.toJson (o : CtlOption) : Json := .choice o.name o.valueToJson

/-- The fields that name a variable of a collection. -/
def Member.fields (m : Member) : List (String × Json) :=
  [("collection", m.collection.toJson), ("variable", m.name.toJson)]

/-- The dump of the value of `setvar`. -/
def SetVar.toJson (v : SetVar) : Json :=
  .object (("op", .text v.change.name) :: v.member.fields ++
    Json.optionalField "modifier" ExpandableString.toJson v.change.modifier)

/-- The dump of the value of `expirevar`. -/
def ExpireVar.toJson (v : ExpireVar) : Json :=
  .object (v.member.fields ++ [("seconds", v.seconds.toJson)])

/-- The dump of the value of `initcol`. -/
def InitCol.toJson (v : InitCol) : Json :=
  .object [("collection", .text v.collection), ("key", v.key.toJson)]

/-- The dump of an action. -/
def Action.toJson (a : Action) : Json :=
  let valued := Json.choice a.keyword.dumpName
  match a with
  | .flag _ => .text a.keyword.dumpName
  | .text _ value => valued value.toJson
  | .number _ value => valued (.number value)
  | .label _ value => valued (.text value)
  | .phase n => valued (.number n)
  | .severity s => valued (.text s.name)
  | .transform t => valued (.text t.name)
  | .setVar value => valued value.toJson
  | .expireVar value => valued value.toJson
  | .initCol value => valued value.toJson
  | .ctl option => valued option.toJson

/-- The dump of actions with their places. -/
def Action.listToJson (actions : List (Positioned Action)) : Json :=
  .list (actions.map fun a =>
    .object [("node", a.node.toJson), ("position", a.position.toJson)])

/-- What a directive says, as the fields before its place. -/
def Directive.Body.fields : Directive.Body → List (String × Json)
  | .rule r =>
    [("variables", .object [("selectors", .list (r.selectors.map Selector.toJson))]),
      ("operator", r.operator.toJson), ("actions", Action.listToJson r.actions)]
  | .action actions | .defaultAction actions => [("actions", Action.listToJson actions)]
  | .marker name => [("name", .text name)]
  | .componentSignature signature => [("signature", .text signature)]
  | .ruleEngine mode => [("mode", .text mode.name)]
  | .auditEngine mode => [("mode", .text mode.name)]
  | .auditLogParts parts => [("parts", AuditLogPart.listToJson parts)]
  | .requestBodyAccess enabled | .responseBodyAccess enabled => [("enabled", .bool enabled)]

/-- The dump of a directive. -/
def Directive.toJson (d : Directive) : Json :=
  .choice d.name (.object (d.body.fields ++ [("position", d.position.toJson)]))

/-- The dump of a comment. -/
def Comment.toJson (c : Comment) : Json :=
  .object [("text", .text c.text), ("position", c.position.toJson)]

/-- The dump of an entry. -/
def Item.toJson : Item → Json
  | .comment c => .choice "Comment" c.toJson
  | .directive d => .choice "Directive" d.toJson

/-- The dump of a document. -/
def Document.toJson (d : Document) : Json :=
  .object [("name", .text d.name), ("items", .list (d.items.map Item.toJson))]

end WafRules
