import Omniweft.Python
import Omniweft.Json

/-!
# Two JSON libraries

The host keeps objects in key order and tells integers by their sign; the SDK keeps
them in the order of the text. `Codecs` is what each side relies on when it reads
what the other has written.
-/

namespace Omniweft

open Python

namespace Json

variable {α : Type}

def insertEntry (name : Text) (value : Json α) :
    List (Text × Json α) → List (Text × Json α)
  | [] => [(name, value)]
  | (other, held) :: rest =>
      if name < other then (name, value) :: (other, held) :: rest
      else (other, held) :: insertEntry name value rest

mutual

/-- The value as the host's map keeps it. -/
def arrange : Json α → Json α
  | .array items => .array (arrangeItems items)
  | .object entries => .object (arrangeEntries entries)
  | value => value

def arrangeItems : List (Json α) → List (Json α)
  | [] => []
  | item :: rest => arrange item :: arrangeItems rest

def arrangeEntries : List (Text × Json α) → List (Text × Json α)
  | [] => []
  | (name, value) :: rest => insertEntry name (arrange value) (arrangeEntries rest)

end

mutual

/-- Every object has its keys in strict order. -/
def Ordered : Json α → Prop
  | .array items => OrderedItems items
  | .object entries => (keys entries).Pairwise (· < ·) ∧ OrderedEntries entries
  | _ => True

def OrderedItems : List (Json α) → Prop
  | [] => True
  | item :: rest => Ordered item ∧ OrderedItems rest

def OrderedEntries : List (Text × Json α) → Prop
  | [] => True
  | (_, value) :: rest => Ordered value ∧ OrderedEntries rest

end

theorem insertEntry_perm (name : Text) (value : Json α) (entries : List (Text × Json α)) :
    (insertEntry name value entries).Perm ((name, value) :: entries) := by
  induction entries with
  | nil => exact List.Perm.refl _
  | cons entry rest inductionHypothesis =>
      simp only [insertEntry]
      split
      · exact List.Perm.refl _
      · exact (inductionHypothesis.cons entry).trans (List.Perm.swap _ _ _)

theorem insertEntry_first (name : Text) (value : Json α) (entries : List (Text × Json α))
    (first : ∀ later ∈ keys entries, name < later) :
    insertEntry name value entries = (name, value) :: entries := by
  cases entries with
  | nil => rfl
  | cons entry rest =>
      have less := first entry.1 (by simp [keys])
      simp [insertEntry, less]

theorem weightEntries_insert (name : Text) (value : Json α)
    (entries : List (Text × Json α)) :
    weightEntries (insertEntry name value entries) =
      name.length + 3 + weight value + 1 + weightEntries entries := by
  induction entries with
  | nil => rfl
  | cons entry rest inductionHypothesis =>
      simp only [insertEntry]
      split
      · rfl
      · simp only [weightEntries, inductionHypothesis]
        omega

theorem depthEntries_insert (name : Text) (value : Json α)
    (entries : List (Text × Json α)) :
    depthEntries (insertEntry name value entries) =
      max (depth value) (depthEntries entries) := by
  induction entries with
  | nil => rfl
  | cons entry rest inductionHypothesis =>
      simp only [insertEntry]
      split
      · rfl
      · simp only [depthEntries, inductionHypothesis]
        omega

mutual

theorem weight_arrange : ∀ value : Json α, weight (arrange value) = weight value
  | .null | .boolean _ | .integer _ | .unsigned _ | .float _ | .string _ => by
      simp [arrange]
  | .array items => by simp [arrange, weight, weightItems_arrange items]
  | .object entries => by simp [arrange, weight, weightEntries_arrange entries]

theorem weightItems_arrange :
    ∀ items : List (Json α), weightItems (arrangeItems items) = weightItems items
  | [] => rfl
  | item :: rest => by
      simp [arrangeItems, weightItems, weight_arrange item, weightItems_arrange rest]

theorem weightEntries_arrange :
    ∀ entries : List (Text × Json α),
      weightEntries (arrangeEntries entries) = weightEntries entries
  | [] => rfl
  | (name, value) :: rest => by
      simp [arrangeEntries, weightEntries, weightEntries_insert, weight_arrange value,
        weightEntries_arrange rest]

end

mutual

theorem depth_arrange : ∀ value : Json α, depth (arrange value) = depth value
  | .null | .boolean _ | .integer _ | .unsigned _ | .float _ | .string _ => by
      simp [arrange]
  | .array items => by simp [arrange, depth, depthItems_arrange items]
  | .object entries => by simp [arrange, depth, depthEntries_arrange entries]

theorem depthItems_arrange :
    ∀ items : List (Json α), depthItems (arrangeItems items) = depthItems items
  | [] => rfl
  | item :: rest => by
      simp [arrangeItems, depthItems, depth_arrange item, depthItems_arrange rest]

theorem depthEntries_arrange :
    ∀ entries : List (Text × Json α),
      depthEntries (arrangeEntries entries) = depthEntries entries
  | [] => rfl
  | (name, value) :: rest => by
      simp [arrangeEntries, depthEntries, depthEntries_insert, depth_arrange value,
        depthEntries_arrange rest]

end

section Portability

variable [Scalar α]

theorem portableItems_iff (items : List (Json α)) :
    PortableItems items ↔ ∀ item ∈ items, Portable item := by
  induction items with
  | nil => simp [PortableItems]
  | cons item rest inductionHypothesis => simp [PortableItems, inductionHypothesis]

theorem portableEntries_iff (entries : List (Text × Json α)) :
    PortableEntries entries ↔
      ∀ entry ∈ entries, entry.1.all printable = true ∧ Portable entry.2 := by
  induction entries with
  | nil => simp [PortableEntries]
  | cons entry rest inductionHypothesis =>
      simp only [PortableEntries, inductionHypothesis, List.forall_mem_cons, and_assoc]

theorem portableEntries_insert (name : Text) (value : Json α)
    (entries : List (Text × Json α)) :
    PortableEntries (insertEntry name value entries) ↔
      (name.all printable = true ∧ Portable value) ∧ PortableEntries entries := by
  rw [portableEntries_iff, portableEntries_iff]
  have same := insertEntry_perm name value entries
  constructor
  · intro each
    exact ⟨each (name, value) (same.mem_iff.mpr (List.mem_cons_self ..)),
      fun entry member => each entry (same.mem_iff.mpr (List.mem_cons_of_mem _ member))⟩
  · intro both entry member
    rcases List.mem_cons.mp (same.mem_iff.mp member) with first | later
    · rw [first]
      exact both.1
    · exact both.2 entry later

end Portability

theorem keys_arrange (entries : List (Text × Json α)) :
    (keys (arrangeEntries entries)).Perm (keys entries) := by
  induction entries with
  | nil => exact List.Perm.refl _
  | cons entry rest inductionHypothesis =>
      have inserted :=
        (insertEntry_perm entry.1 (arrange entry.2) (arrangeEntries rest)).map Prod.fst
      exact inserted.trans (inductionHypothesis.cons entry.1)

mutual

theorem portable_arrange [Scalar α] :
    ∀ value : Json α, Portable (arrange value) ↔ Portable value
  | .null | .boolean _ | .integer _ | .unsigned _ | .float _ | .string _ => by
      simp [arrange]
  | .array items => by simp [arrange, Portable, portableItems_arrange items]
  | .object entries => by
      simp only [arrange, Portable, portableEntries_arrange entries]
      rw [(keys_arrange entries).nodup_iff]

theorem portableItems_arrange [Scalar α] :
    ∀ items : List (Json α), PortableItems (arrangeItems items) ↔ PortableItems items
  | [] => Iff.rfl
  | item :: rest => by
      simp [arrangeItems, PortableItems, portable_arrange item, portableItems_arrange rest]

theorem portableEntries_arrange [Scalar α] :
    ∀ entries : List (Text × Json α),
      PortableEntries (arrangeEntries entries) ↔ PortableEntries entries
  | [] => Iff.rfl
  | (name, value) :: rest => by
      simp [arrangeEntries, PortableEntries, portableEntries_insert, portable_arrange value,
        portableEntries_arrange rest, and_assoc]

end

mutual

theorem arrange_ordered : ∀ value : Json α, Ordered value → arrange value = value
  | .null, _ | .boolean _, _ | .integer _, _ | .unsigned _, _ | .float _, _
  | .string _, _ => by simp [arrange]
  | .array items, ordered => by
      simp only [Ordered] at ordered
      simp [arrange, arrangeItems_ordered items ordered]
  | .object entries, ordered => by
      simp only [Ordered] at ordered
      simp [arrange, arrangeEntries_ordered entries ordered.1 ordered.2]

theorem arrangeItems_ordered :
    ∀ items : List (Json α), OrderedItems items → arrangeItems items = items
  | [], _ => rfl
  | item :: rest, ordered => by
      simp only [OrderedItems] at ordered
      simp [arrangeItems, arrange_ordered item ordered.1, arrangeItems_ordered rest ordered.2]

theorem arrangeEntries_ordered :
    ∀ entries : List (Text × Json α),
      (keys entries).Pairwise (· < ·) → OrderedEntries entries →
      arrangeEntries entries = entries
  | [], _, _ => rfl
  | (name, value) :: rest, sorted, ordered => by
      simp only [OrderedEntries] at ordered
      have parts : (∀ later ∈ keys rest, name < later) ∧ (keys rest).Pairwise (· < ·) := by
        simpa [keys] using sorted
      rw [arrangeEntries, arrange_ordered value ordered.1,
        arrangeEntries_ordered rest parts.2 ordered.2, insertEntry_first _ _ _ parts.1]

end

mutual

theorem Plain.ordered [Scalar α] : ∀ value : Json α, Plain value → Ordered value
  | .null, _ | .boolean _, _ | .integer _, _ | .unsigned _, _ | .float _, _
  | .string _, _ => by simp [Ordered]
  | .array items, plain => by
      simp only [Plain] at plain
      simpa only [Ordered] using Plain.orderedItems items plain
  | .object entries, plain => by
      simp only [Plain] at plain
      simp only [Ordered]
      exact ⟨plain.1, Plain.orderedEntries entries plain.2⟩

theorem Plain.orderedItems [Scalar α] :
    ∀ items : List (Json α), PlainItems items → OrderedItems items
  | [], _ => trivial
  | item :: rest, plain => by
      simp only [PlainItems] at plain
      exact ⟨Plain.ordered item plain.1, Plain.orderedItems rest plain.2⟩

theorem Plain.orderedEntries [Scalar α] :
    ∀ entries : List (Text × Json α), PlainEntries entries → OrderedEntries entries
  | [], _ => trivial
  | (_, value) :: rest, plain => by
      simp only [PlainEntries] at plain
      exact ⟨Plain.ordered value plain.2.1, Plain.orderedEntries rest plain.2.2⟩

end

mutual

/-- The value that the SDK reads from the same text. -/
def image : Json α → Value α
  | .null => .none
  | .boolean value => .boolean value
  | .integer value => .integer value
  | .unsigned value => .integer value.toNat
  | .float value => .float value
  | .string value => .str value
  | .array items => .list (imageItems items)
  | .object entries => .dict (imageEntries entries)

def imageItems : List (Json α) → List (Value α)
  | [] => []
  | item :: rest => image item :: imageItems rest

def imageEntries : List (Text × Json α) → List (Text × Value α)
  | [] => []
  | (name, value) :: rest => (name, image value) :: imageEntries rest

end

theorem imageItems_map (items : List (Json α)) : imageItems items = items.map image := by
  induction items with
  | nil => rfl
  | cons item rest inductionHypothesis => simp [imageItems, inductionHypothesis]

end Json

/-- What the two libraries do for each other: a value that needs no escapes is read by
the other side as it was written, and the SDK reads its own text back. A double holds
a small integer exactly. -/
structure Codecs {α : Type} [Scalar α] (python : Interpreter α) (library : JsonLibrary α) :
    Prop where
  faithful : library.Faithful
  small :
    ∀ number : Int, number.natAbs ≤ 2 ^ 53 →
      Scalar.isFinite (Scalar.ofInt number : α) = true ∧
        python.equalsInt number (Scalar.ofInt number) = true
  toSdk :
    ∀ value : Json α, value.Portable → value.Ordered → value.depth ≤ 32 →
      ∃ bytes,
        library.dump value = some bytes ∧ bytes.length ≤ value.weight ∧
          python.loads bytes = some value.image
  toHost :
    ∀ value : Json α, value.Portable → value.depth ≤ 32 →
      ∃ bytes,
        python.dumps value.image = some bytes ∧ bytes.length ≤ value.weight ∧ 0 ∉ bytes ∧
          library.events bytes = value.saxEvents ∧
          library.document bytes = some value.arrange ∧
          python.loads bytes = some value.image

end Omniweft
