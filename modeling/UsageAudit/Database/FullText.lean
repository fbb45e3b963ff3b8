import UsageAudit.Database.Cell
import UsageAudit.Text.Unaccented
import UsageAudit.Text.WordCharacter

/-!
# Searching in full text

A text is a row of words: the longest runs of word characters, in lower case and without accents. A
phrase occurs where its words stand next to each other in one text. What is found is ranked by how
often phrases occur in it, measured by its length and by how rare the phrases are.
-/

namespace UsageAudit.Database.FullText

/-- A word of a text, without case and accents. -/
abbrev Word := List Char

/-- The words of a text. `word` is the one that is open, in reverse. -/
def wordsFrom (word : Word) : List Char → List Word
  | [] => if word.isEmpty then [] else [word.reverse]
  | c :: rest =>
    if Text.isWordCharacter c then wordsFrom (Text.unaccented c :: word) rest
    else if word.isEmpty then wordsFrom [] rest
    else if Text.isAccent c then wordsFrom word rest
    else word.reverse :: wordsFrom [] rest

/-- The words of a text. -/
def words (text : List Char) : List Word := wordsFrom [] text

/-- How often a phrase occurs in a row of words. A phrase without words occurs nowhere. -/
def occurrences (phrase : List Word) : List Word → Nat
  | [] => 0
  | word :: rest =>
    let here := if !phrase.isEmpty && phrase.isPrefixOf (word :: rest) then 1 else 0
    here + occurrences phrase rest

/-- A document: an entry with the words of its texts. -/
structure Document (ι : Type) where
  entry : ι
  texts : List (List Word)

namespace Document

variable {ι : Type}

/-- How many words a document has. -/
def length (document : Document ι) : Nat := document.texts.flatten.length

/-- How often a phrase occurs in a document. -/
def frequency (document : Document ι) (phrase : List Word) : Nat :=
  document.texts.foldl (fun found text => found + occurrences phrase text) 0

end Document

/-- How much a phrase counts that so many of all documents hold. A phrase in more than half of them
hardly counts. -/
def rarity (documents holding : Nat) : Float :=
  let weight :=
    Float.log ((Float.ofNat (documents - holding) + 0.5) / (Float.ofNat holding + 0.5))
  if weight ≤ 0.0 then 0.000001 else weight

/-- What occurrences in a document of some length add to its score. -/
def contribution (weight : Float) (frequency length : Nat) (meanLength : Float) : Float :=
  let frequency := Float.ofNat frequency
  weight * ((frequency * 2.2) /
    (frequency + 1.2 * (1.0 - 0.75 + 0.75 * Float.ofNat length / meanLength)))

/-- The entries in whose documents a phrase occurs, those with the highest score first. -/
def ranked {ι : Type} (phrases : List (List Word)) (documents : List (Document ι)) : List ι :=
  let count := documents.length
  let meanLength :=
    Float.ofNat (documents.flatMap Document.texts).flatten.length / Float.ofNat count
  let weighted := phrases.map fun phrase =>
    (phrase, rarity count (documents.countP fun document => document.frequency phrase != 0))
  let scored := documents.filterMap fun document =>
    let frequencies := weighted.map fun (phrase, weight) => (document.frequency phrase, weight)
    if frequencies.all fun entry => entry.1 == 0 then none
    else
      some (frequencies.foldl (fun score (frequency, weight) =>
        score + contribution weight frequency document.length meanLength) 0.0, document.entry)
  (scored.mergeSort fun a b => decide (b.1 ≤ a.1)).map Prod.snd

end UsageAudit.Database.FullText
