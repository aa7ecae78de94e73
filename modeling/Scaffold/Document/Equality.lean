import Scaffold.Document.Basic

/-!
Equality of documents is decided, by going through both at once. Two objects are equal if they
have the same fields in the same order.
-/
namespace Scaffold
namespace Document

mutual

def same : Document → Document → Bool
  | null, null => true
  | bool a, bool b => a == b
  | number a, number b => a == b
  | infinite a, infinite b => a == b
  | text a, text b => a == b
  | list items, list others => sameItems items others
  | object fields, object others => sameFields fields others
  | _, _ => false

def sameItems : List Document → List Document → Bool
  | [], [] => true
  | item :: items, other :: others => item.same other && sameItems items others
  | _, _ => false

def sameFields : List (String × Document) → List (String × Document) → Bool
  | [], [] => true
  | (key, value) :: fields, (key', value') :: others =>
    key == key' && value.same value' && sameFields fields others
  | _, _ => false

end

mutual

theorem same_iff : ∀ a b : Document, a.same b = true ↔ a = b
  | null, b => by cases b <;> simp [same]
  | bool _, b => by cases b <;> simp [same]
  | number _, b => by cases b <;> simp [same]
  | infinite _, b => by cases b <;> simp [same]
  | text _, b => by cases b <;> simp [same]
  | list items, b => by cases b <;> simp [same, sameItems_iff items]
  | object fields, b => by cases b <;> simp [same, sameFields_iff fields]

theorem sameItems_iff : ∀ items others : List Document, sameItems items others = true ↔ items = others
  | [], others => by cases others <;> simp [sameItems]
  | item :: items, others => by
    cases others <;> simp [sameItems, same_iff item, sameItems_iff items]

theorem sameFields_iff : ∀ fields others : List (String × Document),
    sameFields fields others = true ↔ fields = others
  | [], others => by cases others <;> simp [sameFields]
  | (key, value) :: fields, others => by
    cases others <;> simp [sameFields, same_iff value, sameFields_iff fields, Prod.ext_iff]

end

instance : DecidableEq Document := fun a b => decidable_of_iff (a.same b = true) (same_iff a b)

end Document
end Scaffold
