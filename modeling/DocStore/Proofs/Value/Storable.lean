import DocStore.Collection
import DocStore.Proofs.Json.RoundTrip
import DocStore.Proofs.Value.Canonical

/-! # Encoded values can be stored

What a value encodes to is bounded in depth, is its own encoding, and can be read back from the text
of a document. The budget of levels that encoding works with is the bound on depth, and it stays
below the nesting that reading accepts. -/
set_option autoImplicit false

namespace DocStore

/-- A document of canonical members reads back from its text. -/
theorem Document.ofCell_text {n : Nat} {members : Document} (h : Json.Fits n (.object members))
    (shallow : n ≤ Json.maxReadNesting) :
    ofCell (some (.string (text members))) = .ok members := by
  have read : Json.read? (text members) = some (.object members) := h.read?_text shallow
  rw [ofCell, read]

namespace Value

/-- What a value encodes to is canonical: no part of it lies deeper than the limit, it is its own
encoding with default options, and the document it makes reads back from its text. -/
theorem encode_canonical (transforms : Transforms) (o : EncodeOptions) (v : Value) {j : Json}
    (h : v.encode transforms o = .ok j) :
    (∀ depth part, Json.PartAt depth part j → depth ≤ maxNesting) ∧
      (∀ others : Transforms, (ofJson j).toJson others = .ok j) ∧
      ∀ members, j = .object members →
        Document.ofCell (some (.string (Document.text members))) = .ok members := by
  have fits : Json.Fits (maxNesting + 1) j := fits_encodeWithin transforms _ o v j h
  refine ⟨fun depth part inside => ?_, fun others => ?_, ?_⟩
  · exact Nat.le_of_lt_succ (fits.lt_of_partAt inside)
  · exact encodeWithin_ofJson others ⟨rfl, rfl⟩ fits
  · rintro members rfl
    exact Document.ofCell_text fits (by decide)

/-- Two custom encoders: one counts an integer down, a level for each, and one shows money. -/
def countdown : Transforms
  | 0, .int i => if 0 < i then some (.list [.int (i - 1), .string "left"]) else none
  | 1, .foreign "Money" cents => some (.map [(.uint (UInt64.ofNat cents), .bool true)])
  | _, _ => none

def tenth : Binary64 := Binary64.ofRank false 4591870180066957722

/-- An offer with an encoder for money, around a record that brings its own. -/
def offer : Value :=
  .map
    [(.string "reading",
        .record "Reading"
          [⟨"when", none, .int 2⟩, ⟨"level", some "dB", .float tenth⟩, ⟨"missing", none, .null⟩,
            ⟨"ports", none, .map [(.enumerated "Port" "https" (.uint 443), .secret "open"),
              (.bool true, .null), (.string "443", .date ⟨2024, 2, 29, by decide⟩)]⟩]
          [⟨"countdown", 0⟩]),
      (.string "price", .foreign "Money" 1250),
      (.string "note", .foreign "Draft" 7)]

def offerOptions : EncodeOptions :=
  { exclude := ["note"], keepNulls := false, encoders := [⟨"money", 1⟩] }

def offerMembers : Document :=
  [("price", .object [("1250", .bool true)]),
    ("reading", .object
      [("dB", .number (.float tenth (by decide))),
        ("ports", .object [("443", .string "2024-02-29"), ("true", .null)]),
        ("when", .array [.array [.number (.ofInt64 0), .string "left"], .string "left"])])]

theorem encode_canonical_offer :
    offer.encode countdown offerOptions = .ok (.object offerMembers) ∧
      (ofJson (.object offerMembers)).toJson noTransforms = .ok (.object offerMembers) ∧
      Document.ofCell (some (.string (Document.text offerMembers))) = .ok offerMembers := by
  have encoded : offer.encode countdown offerOptions = .ok (.object offerMembers) := by
    with_unfolding_all rfl
  obtain ⟨-, again, stored⟩ := encode_canonical countdown offerOptions offer encoded
  exact ⟨encoded, again noTransforms, stored offerMembers rfl⟩

end Value
end DocStore
