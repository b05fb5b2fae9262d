import OpenADA.Synth.Liberty

/-! The gate of the inputs that OpenSTA reads itself: each is read in chunks, and refused when a
window of the last bytes and the next chunk shows a word that would make OpenSTA read another
file. The gate is compared with the search through the whole input. -/
namespace OpenADA.Sta

open WordSearch

def maxInputScanOverlapBytes : ℕ := 512

def verilogTransitiveRead : Pattern UInt8 := byteWords ["`include"] false

def libertyTransitiveRead : Pattern UInt8 := byteWords ["include", "include_file"] true

/-- A regular file that stays what it is while it is read: its size when it was opened, and what
each read gave before the one that gave nothing. -/
structure StableFile where
  size : ℕ
  reads : List (List UInt8)
  nonempty : ∀ chunk ∈ reads, chunk ≠ []

inductive InputScan (Digest : Type) where
  | missingOrUnsafe | empty | tooLarge | transitiveIncludeDirective | changedOrIncomplete
  | selfContained (digest : Digest)
  deriving DecidableEq

section Scan

variable {Digest : Type} (sha256 : List UInt8 → Digest) (maximum : ℕ) (transitive : Pattern UInt8)

/-- The loop over the reads, with the bytes observed so far and the tail of the last window. -/
def scanReads (size : ℕ) (observed tail : List UInt8) : List (List UInt8) → InputScan Digest
  | [] => if observed.length ≠ size then .changedOrIncomplete else .selfContained (sha256 observed)
  | chunk :: rest =>
    if maximum < observed.length + chunk.length then .tooLarge
    else if transitive.search none (tail ++ chunk) then .transitiveIncludeDirective
    else scanReads size (observed ++ chunk) ((tail ++ chunk).rtake maxInputScanOverlapBytes) rest

/-- `_scan_self_contained_input`; there is no file where it cannot be opened or has changed. -/
def scanSelfContainedInput : Option StableFile → InputScan Digest
  | none => .missingOrUnsafe
  | some file =>
    if file.size = 0 then .empty
    else if maximum < file.size then .tooLarge
    else scanReads sha256 maximum transitive file.size [] [] file.reads

variable {sha256 maximum transitive}

theorem scanReads_transitive {size : ℕ} {reads : List (List UInt8)} {observed tail : List UInt8}
    (h : observed.length + reads.flatten.length ≤ maximum) :
    scanReads sha256 maximum transitive size observed tail reads = .transitiveIncludeDirective ↔
      transitive.scan maxInputScanOverlapBytes tail reads = true := by
  induction reads generalizing observed tail with
  | nil =>
    rw [scanReads, Pattern.scan]
    split_ifs <;> simp
  | cons chunk rest ih =>
    rw [List.flatten_cons, List.length_append] at h
    rw [scanReads, Pattern.scan, if_neg (by omega), Bool.or_eq_true]
    by_cases hsearch : transitive.search none (tail ++ chunk) = true
    · simp [hsearch]
    · rw [if_neg hsearch, ih (by rw [List.length_append]; omega)]
      simp [hsearch]

/-- A file within the limit is refused for what it includes where the windows show a word. -/
theorem scanSelfContainedInput_transitive {file : StableFile} (hpos : 0 < file.size)
    (hsize : file.size = file.reads.flatten.length) (hmaximum : file.size ≤ maximum) :
    scanSelfContainedInput sha256 maximum transitive (some file) = .transitiveIncludeDirective ↔
      transitive.scan maxInputScanOverlapBytes [] file.reads = true := by
  rw [scanSelfContainedInput, if_neg (by omega), if_neg (by omega), scanReads_transitive]
  rw [List.length_nil]
  omega

end Scan

theorem verilog_words : ∀ word ∈ verilogTransitiveRead.words,
    word ≠ [] ∧ word.length ≤ maxInputScanOverlapBytes := by
  decide

theorem liberty_words : ∀ word ∈ libertyTransitiveRead.words,
    word ≠ [] ∧ word.length ≤ maxInputScanOverlapBytes := by
  decide

section Gates

variable {Digest : Type} (sha256 : List UInt8 → Digest) (maximum : ℕ)

def JudgesWhole (transitive : Pattern UInt8) (file : StableFile) : Prop :=
  scanSelfContainedInput sha256 maximum transitive (some file) = .transitiveIncludeDirective ↔
    transitive.Matches file.reads.flatten

/-- The scan refuses what a Liberty file includes where the whole-buffer gate of synthesis does. -/
def JudgesAlike (file : StableFile) : Prop :=
  scanSelfContainedInput sha256 maximum libertyTransitiveRead (some file) =
      .transitiveIncludeDirective ↔
    Synth.libertyCells (some (file.size, file.reads.flatten)) = .error .transitiveIncludeDirective

/-- A word stands in the file, or no end of a window cuts a longer word. -/
def ScannedWhole (transitive : Pattern UInt8) (file : StableFile) : Prop :=
  transitive.Matches file.reads.flatten ∨ transitive.Uncut maxInputScanOverlapBytes file.reads

variable {sha256 maximum}

theorem judgesWhole_iff {transitive : Pattern UInt8}
    (hwords : ∀ word ∈ transitive.words, word ≠ [] ∧ word.length ≤ maxInputScanOverlapBytes)
    {file : StableFile} (hpos : 0 < file.size) (hsize : file.size = file.reads.flatten.length)
    (hmaximum : file.size ≤ maximum) :
    JudgesWhole sha256 maximum transitive file ↔ ScannedWhole transitive file := by
  rw [JudgesWhole, scanSelfContainedInput_transitive hpos hsize hmaximum]
  exact scan_iff_matches hwords

theorem judgesAlike_iff {file : StableFile} (hpos : 0 < file.size)
    (hsize : file.size = file.reads.flatten.length)
    (hlimit : file.size ≤ Synth.maxLibertyParseBytes) :
    JudgesAlike sha256 maximum file ↔ JudgesWhole sha256 maximum libertyTransitiveRead file := by
  have hne : file.reads.flatten ≠ [] := by
    intro hnil
    rw [hnil, List.length_nil] at hsize
    omega
  rw [JudgesAlike, JudgesWhole, hsize, Synth.libertyCells_transitive hne (hsize ▸ hlimit)]
  rfl

end Gates

def oneRead : StableFile := ⟨(ascii "cell (INV) \x7b\x7d").length, [ascii "cell (INV) \x7b\x7d"], by decide⟩

def cutWord (blanks : ℕ) : StableFile where
  size := blanks + 519
  reads := [List.replicate blanks 32 ++ ascii "include", ascii "d" ++ List.replicate 511 32]
  nonempty := by
    intro chunk hchunk
    rw [List.mem_pair] at hchunk
    rcases hchunk with rfl | rfl
    · exact List.append_ne_nil_of_right_ne_nil _ (by decide)
    · exact List.append_ne_nil_of_left_ne_nil (by decide) _

theorem cutWord_size (blanks : ℕ) :
    (cutWord blanks).size = (cutWord blanks).reads.flatten.length := by
  have hword : (ascii "include").length = 7 := by decide
  have hrest : (ascii "d").length = 1 := by decide
  rw [cutWord, List.flatten_cons, List.flatten_cons, List.flatten_nil]
  simp only [List.length_append, List.length_replicate, hword, hrest, List.length_nil]

theorem search_blanks (blanks : ℕ) (text : List UInt8) :
    libertyTransitiveRead.search (some 32) (List.replicate blanks 32 ++ text) =
      libertyTransitiveRead.search (some 32) text := by
  induction blanks with
  | zero => rfl
  | succ n ih =>
    rw [List.replicate_succ, List.cons_append, Pattern.search, ih]
    simp [Pattern.here, libertyTransitiveRead, byteWords, ascii, lowerByte]

theorem search_blanks_none {blanks : ℕ} (hpos : 0 < blanks) (text : List UInt8) :
    libertyTransitiveRead.search none (List.replicate blanks 32 ++ text) =
      libertyTransitiveRead.search (some 32) text := by
  obtain ⟨n, rfl⟩ := Nat.exists_eq_add_one.mpr hpos
  rw [← search_blanks n text, List.replicate_succ, List.cons_append, Pattern.search]
  simp [Pattern.here, libertyTransitiveRead, byteWords, ascii, lowerByte]

theorem cutWord_not_matches {blanks : ℕ} (hpos : 0 < blanks) :
    ¬libertyTransitiveRead.Matches (cutWord blanks).reads.flatten := by
  rw [← search_iff_matches, cutWord, List.flatten_cons, List.flatten_cons, List.append_assoc,
    search_blanks_none hpos]
  decide +kernel

theorem cutWord_scanned {blanks : ℕ} (hpos : 0 < blanks) :
    libertyTransitiveRead.scan maxInputScanOverlapBytes [] (cutWord blanks).reads = true := by
  have hfront : libertyTransitiveRead.search (some 32) (ascii "include") = true := by decide
  rw [cutWord, Pattern.scan, List.nil_append, search_blanks_none hpos, hfront, Bool.true_or]

end OpenADA.Sta
