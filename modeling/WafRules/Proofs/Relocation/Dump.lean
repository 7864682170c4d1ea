import Mathlib.Data.List.Forall2
import WafRules.Document.Dump
import WafRules.Proofs.Relocation

/-!
# Relocation of dumps

The dump of a document shows the places of its parts.  When every place is moved, the dump shows
the moved places and is otherwise the same: the same fields in the same order, and the same values
in them.

## Main Definitions

* `Json.Moved` — two JSON values that differ in nothing but the places in them.

## Main Statements

* `Directive.toJson_moved`, `Item.toJson_moved` — the dumps of moved parts.
* `Document.items_moved` — the entries of a moved document.
-/

namespace WafRules

namespace Json

/-- Whether one JSON value is another in which places are moved and nothing else is changed. -/
inductive Moved (f : Position → Position) : Json → Json → Prop
  | same (json : Json) : Moved f json json
  | place (p : Position) : Moved f p.toJson (f p).toJson
  | list {items items' : List Json} (each : List.Forall₂ (Moved f) items items') :
    Moved f (.list items) (.list items')
  | object {fields fields' : List (String × Json)}
    (keys : fields.map Prod.fst = fields'.map Prod.fst)
    (values : List.Forall₂ (Moved f) (fields.map Prod.snd) (fields'.map Prod.snd)) :
    Moved f (.object fields) (.object fields')

/-- Whether the fields of one object are those of another, with places moved in their values. -/
def FieldsMoved (f : Position → Position) : List (String × Json) → List (String × Json) → Prop :=
  List.Forall₂ fun field field' => field.1 = field'.1 ∧ Moved f field.2 field'.2

variable {f : Position → Position}

/-- Fields without places stay. -/
theorem FieldsMoved.same (fields : List (String × Json)) : FieldsMoved f fields fields :=
  List.forall₂_same.mpr fun _ _ => ⟨rfl, .same _⟩

/-- One field. -/
theorem FieldsMoved.single (name : String) {value value' : Json} (moved : Moved f value value') :
    FieldsMoved f [(name, value)] [(name, value')] := .cons ⟨rfl, moved⟩ .nil

/-- Fields behind others. -/
theorem FieldsMoved.append {fields fields' others others' : List (String × Json)}
    (first : FieldsMoved f fields fields') (second : FieldsMoved f others others') :
    FieldsMoved f (fields ++ others) (fields' ++ others') := List.rel_append first second

/-- An object is moved with its fields. -/
theorem Moved.ofFields {fields fields' : List (String × Json)}
    (moved : FieldsMoved f fields fields') : Moved f (.object fields) (.object fields') := by
  refine .object ?_ ?_
  · induction moved with
    | nil => rfl
    | cons first _ ih => exact congrArg₂ List.cons first.1 ih
  · induction moved with
    | nil => exact .nil
    | cons first _ ih => exact .cons first.2 ih

/-- A choice between several forms of value is an object with one field. -/
theorem Moved.choice (name : String) {value value' : Json} (moved : Moved f value value') :
    Moved f (.choice name value) (.choice name value') := .ofFields (.single name moved)

/-- The dumps of moved values, one for each. -/
theorem Moved.map {α : Type} [Relocatable α] {toJson : α → Json}
    (moved : ∀ a, Moved f (toJson a) (toJson (relocate f a))) (values : List α) :
    Moved f (.list (values.map toJson)) (.list ((relocate f values).map toJson)) := by
  refine .list ?_
  induction values with
  | nil => exact .nil
  | cons a values ih => exact .cons (moved a) ih

/-- An object that ends with the place it was read at. -/
theorem Moved.placed {fields fields' : List (String × Json)} (moved : FieldsMoved f fields fields')
    (p : Position) :
    Moved f (.object (fields ++ [("position", p.toJson)]))
      (.object (fields' ++ [("position", (f p).toJson)])) :=
  .ofFields (moved.append (.single "position" (.place p)))

end Json

open Json (Moved FieldsMoved)

variable (f : Position → Position)

/-- A selector shows its place last. -/
theorem Selector.toJson_moved (s : Selector) : Moved f s.toJson (relocate f s).toJson :=
  .placed (.same _) s.position

/-- An operator shows its place last. -/
theorem Operator.toJson_moved (o : Operator) : Moved f o.toJson (relocate f o).toJson :=
  .placed (.same [("kind", o.kind.toJson), ("negated", .bool o.negated)]) o.position

/-- Of the control options only those with a target show a place. -/
theorem CtlOption.toJson_moved (o : CtlOption) : Moved f o.toJson (relocate f o).toJson := by
  cases o with
  | ruleRemoveTargetById ids target =>
    exact .choice _ (.ofFields ((FieldsMoved.same [("ids", ids.toJson)]).append
      (.single "target" (target.toJson_moved f))))
  | ruleRemoveTargetByTag tag target =>
    exact .choice _ (.ofFields ((FieldsMoved.same [("tag", .text tag)]).append
      (.single "target" (target.toJson_moved f))))
  | auditEngine | auditLogParts | forceRequestBodyVariable | requestBodyAccess
    | requestBodyProcessor | ruleEngine | ruleRemoveById | ruleRemoveByTag => exact .same _

/-- Of the actions only control options show a place in their value. -/
theorem Action.toJson_moved (a : Action) : Moved f a.toJson (relocate f a).toJson := by
  cases a with
  | ctl option => exact .choice _ (option.toJson_moved f)
  | flag | text | number | label | phase | severity | transform | setVar | expireVar | initCol =>
    exact .same _

/-- A list of actions shows the place of each. -/
theorem Action.listToJson_moved (actions : List (Positioned Action)) :
    Moved f (Action.listToJson actions) (Action.listToJson (relocate f actions)) :=
  .map (fun a => .placed (.single "node" (a.node.toJson_moved f)) a.position) actions

/-- What a directive says holds places only in its selectors, its operator and its actions. -/
theorem Directive.Body.fields_moved (body : Directive.Body) :
    FieldsMoved f body.fields (relocate f body).fields := by
  cases body with
  | rule r =>
    have selectors : Moved f (.object [("selectors", .list (r.selectors.map Selector.toJson))])
        (.object [("selectors", .list ((relocate f r.selectors).map Selector.toJson))]) :=
      .choice "selectors" (.map (Selector.toJson_moved f) r.selectors)
    exact (FieldsMoved.single "variables" selectors).append
      ((FieldsMoved.single "operator" (r.operator.toJson_moved f)).append
        (.single "actions" (Action.listToJson_moved f r.actions)))
  | action actions | defaultAction actions =>
    exact .single "actions" (Action.listToJson_moved f actions)
  | marker | componentSignature | ruleEngine | auditEngine | auditLogParts | requestBodyAccess
    | responseBodyAccess => exact .same _

/-- The name of a directive is that of what it says. -/
theorem Directive.name_relocate (d : Directive) : (relocate f d).name = d.name := by
  obtain ⟨body, position⟩ := d
  cases body <;> rfl

/-- The **dump of a moved directive.** -/
theorem Directive.toJson_moved (d : Directive) : Moved f d.toJson (relocate f d).toJson := by
  unfold Directive.toJson
  rw [Directive.name_relocate]
  exact .choice d.name (.placed (d.body.fields_moved f) d.position)

/-- A comment shows its text and its place. -/
theorem Comment.toJson_moved (c : Comment) : Moved f c.toJson (relocate f c).toJson :=
  .placed (.same [("text", .text c.text)]) c.position

/-- An **item of a document,** whichever it is. -/
theorem Item.toJson_moved (item : Item) : Moved f item.toJson (relocate f item).toJson := by
  cases item with
  | comment c => exact .choice "Comment" (c.toJson_moved f)
  | directive d => exact .choice "Directive" (d.toJson_moved f)

/-- The **entries of a moved document**, in its dump. -/
theorem Document.items_moved (items : List Item) :
    Moved f (.list (items.map Item.toJson)) (.list ((relocate f items).map Item.toJson)) :=
  .map (Item.toJson_moved f) items

end WafRules
