import Creditcoin.Base64
import Creditcoin.Replay
import Mathlib.Data.List.Induction
import Mathlib.Data.List.TakeWhile

/-!
# The transition file

The blocks of the chain that is taken over are read from a file of lines: the number of a block,
its signer, three lines for each transaction, and a line with a dot. An empty line ends the list.
The loops look at the lines only. The last line that is read is what stands after the last newline,
and from then on a line does not change.
-/

namespace Creditcoin

/-- A recorded transaction, as the file has it. -/
structure LoadedTx where
  /-- `sighash`. -/
  sighash : Text
  /-- `guid`. -/
  guid : Text
  /-- `payload`. -/
  payload : List UInt8

/-- A recorded block, as the file has it. -/
structure LoadedBlock where
  /-- `signer`. -/
  signer : Text
  /-- `txs`. -/
  txs : List LoadedTx

/-! ## Lines -/

/-- A stream: what is left to read, and whether the end was not reached yet. -/
structure InputStream where
  /-- What is left. -/
  rest : Text
  /-- `good()`. -/
  good : Bool

/-- `std::getline`: nothing is read past the end, and a line that the end cuts off is read. -/
def InputStream.getline (stream : InputStream) (line : Text) : Text × InputStream :=
  if stream.good then
    match stream.rest.dropWhile (· != '\n') with
    | [] => (stream.rest, ⟨[], false⟩)
    | _ :: rest => (stream.rest.takeWhile (· != '\n'), ⟨rest, true⟩)
  else (line, stream)

/-- The lines of a content, the last of which no newline ends. -/
def Text.lines (content : Text) : List Text := content.splitOn '\n'

/-- The lines that are left. -/
def InputStream.lines (stream : InputStream) : List Text :=
  if stream.good then stream.rest.lines else []

/-! ## The loops -/

/-- What the loops change. -/
structure Loader where
  /-- `migrationData`. -/
  migrationData : InputStream
  /-- `line`. -/
  line : Text
  /-- `blocks`. -/
  blocks : List LoadedBlock
  /-- `txguid2prevblockidx`, with the last assignment first. -/
  txguid2prevblockidx : List (Text × TxPos)

namespace Loader

/-- `std::getline(migrationData, line)`. -/
def getline (loader : Loader) : Loader :=
  let (line, migrationData) := loader.migrationData.getline loader.line
  { loader with line := line, migrationData := migrationData }

/-- `std::string line;`. -/
def declareLine (loader : Loader) : Loader := { loader with line := [] }

/-- `txguid2prevblockidx[line] = TxPos(block, txCount)`. -/
def record (loader : Loader) (block : Int) (txCount : Nat) : Loader :=
  { loader with
    txguid2prevblockidx := (loader.line, ⟨block, txCount⟩) :: loader.txguid2prevblockidx }

/-- The inner loop, for so many passes. -/
def loadTxs (blockIdx : Int) : Nat → Loader → Nat → LoadedBlock →
    Option (Except Halt (Loader × LoadedBlock))
  | 0, _, _, _ => none
  | fuel + 1, loader, txCount, b =>
    let loader := loader.getline
    if loader.line = ".".toList then some (.ok (loader, b))
    else
      let loader := loader.record (blockIdx - 1) txCount
      let guid := loader.line
      let loader := loader.getline
      let sighash := loader.line
      let loader := loader.getline
      match decodeBase64 loader.line with
      | .error halt => some (.error halt)
      | .ok payload =>
        loadTxs blockIdx fuel loader (txCount + 1)
          { b with txs := b.txs ++ [⟨sighash, guid, payload⟩] }

/-- `convert_to<int>()` of a positive number: the largest `int` stands for all larger ones. -/
def convertToInt (number : Int) : Nat := min number.toNat 2147483647

/-- `blocks.resize(blockIdx + 1)` where there are too few. -/
def resize (blocks : List LoadedBlock) (blockIdx : Nat) : Except Halt (List LoadedBlock) :=
  if blocks.length ≤ blockIdx then
    if blockIdx = 2147483647 then .error .undefinedSum
    else .ok (blocks ++ List.replicate (blockIdx + 1 - blocks.length) ⟨[], []⟩)
  else .ok blocks

/-- The outer loop, for so many passes; each pass leaves as many to the inner loop. -/
def load : Nat → Loader → Option (Except Halt Loader)
  | 0, _ => none
  | fuel + 1, loader =>
    let loader := loader.declareLine.getline
    if loader.line.length = 0 then some (.ok loader)
    else
      match getBigint loader.line false with
      | .error failure => some (.error (.thrown failure))
      | .ok number =>
        let blockIdx := convertToInt number
        let loader := loader.getline
        match resize loader.blocks blockIdx with
        | .error halt => some (.error halt)
        | .ok blocks =>
          match loadTxs blockIdx fuel { loader with blocks := blocks } 0 ⟨loader.line, []⟩ with
          | none => none
          | some (.error halt) => some (.error halt)
          | some (.ok (loader, b)) =>
            load fuel { loader with blocks := loader.blocks.set blockIdx b }

/-- The loops start at the front of the file. -/
def start (content : Text) : Loader := ⟨⟨content, true⟩, [], [], []⟩

end Loader

/-! ## The format -/

/-- What a line of the file is. -/
inductive Place where
  /-- The number of a block, or the empty line. -/
  | number
  /-- The signer of the block. -/
  | signer
  /-- The guid of a transaction, or the dot. -/
  | guid
  /-- Who signed the transaction. -/
  | sighash
  /-- The payload of the transaction. -/
  | payload
  /-- Nothing is read any more. -/
  | done
deriving DecidableEq

namespace Place

/-- What the next line is. -/
def next : Place → Text → Place
  | number, line =>
    if line = [] then done
    else
      match getBigint line false with
      | .ok value => if value < 2147483647 then signer else done
      | .error _ => done
  | signer, _ => guid
  | guid, line => if line = ".".toList then number else sighash
  | sighash, _ => payload
  | payload, line =>
    match decodeBase64 line with
    | .ok _ => guid
    | .error _ => done
  | done, _ => done

/-- The place is within a block. -/
def inside : Place → Bool
  | number | done => false
  | _ => true

end Place

/-- A file ends within a block, and what stands after its last newline is decoded. -/
def Cut (place : Place) (lines : List Text) (line : Text) : Prop :=
  (lines.foldl Place.next place).inside = true ∧
    ∃ payload, decodeBase64 (lines.getLastD line) = .ok payload

/-- The transactions in front of a dot, and the lines after it, where a line was read last. -/
inductive TxLines : Text → List Text → List LoadedTx → List Text → Prop where
  /-- The dot. -/
  | close {last : Text} {rest : List Text} : TxLines last (".".toList :: rest) [] rest
  /-- The signer was a dot, and the file ended with it. -/
  | stay : TxLines ".".toList [] [] []
  /-- A transaction. -/
  | tx {last guid sighash line : Text} {payload : List UInt8} {lines rest : List Text}
      {txs : List LoadedTx} (other : guid ≠ ".".toList) (decoded : decodeBase64 line = .ok payload)
      (later : TxLines line lines txs rest) :
      TxLines last (guid :: sighash :: line :: lines) (⟨sighash, guid, payload⟩ :: txs) rest

/-- A block, as the file lists it. -/
structure Listing extends LoadedBlock where
  /-- `blockIdx`. -/
  blockIdx : Nat

/-- The blocks that the lines list in front of an empty line or of the end. -/
inductive Listings : List Text → List Listing → Prop where
  /-- The end of the file. -/
  | nil : Listings [] []
  /-- The empty line. -/
  | empty {rest : List Text} : Listings ([] :: rest) []
  /-- A block. -/
  | cons {line signer : Text} {number : Int} {lines rest : List Text} {txs : List LoadedTx}
      {later : List Listing} (there : line ≠ []) (read : getBigint line false = .ok number)
      (small : number < 2147483647) (listed : TxLines signer lines txs rest)
      (others : Listings rest later) :
      Listings (line :: signer :: lines) (⟨⟨signer, txs⟩, number.toNat⟩ :: later)

namespace Listing

/-- The blocks with a listed one. -/
def place (blocks : List LoadedBlock) (listing : Listing) : List LoadedBlock :=
  let empty : LoadedBlock := ⟨[], []⟩
  (blocks ++ List.replicate (listing.blockIdx + 1 - blocks.length) empty).set listing.blockIdx
    listing.toLoadedBlock

/-- The positions of transactions, the last one first. -/
def recordedFrom (block : Int) (first : Nat) (txs : List LoadedTx) : List (Text × TxPos) :=
  ((txs.zipIdx first).map fun tx => (tx.1.guid, ⟨block, tx.2⟩)).reverse

/-- The positions of the transactions of a listed block, the last one first. -/
def recorded (listing : Listing) : List (Text × TxPos) :=
  recordedFrom ((listing.blockIdx : Int) - 1) 0 listing.txs

/-- The positions of the transactions of all listed blocks, the last one first. -/
def positions (listings : List Listing) : List (Text × TxPos) :=
  listings.reverse.flatMap recorded

end Listing

/-- A dot is no sextet. -/
theorem decodeBase64_dot : ∃ halt, decodeBase64 ".".toList = .error halt :=
  ⟨_, (by decide +kernel :
    decodeBase64 ".".toList = .error (.thrown (rejection "Invalid character in base64")))⟩

/-- A line that is decoded is no dot. -/
theorem ne_dot_of_decoded {line : Text} {payload : List UInt8}
    (decoded : decodeBase64 line = .ok payload) : line ≠ ".".toList := by
  rintro rfl
  obtain ⟨halt, refused⟩ := decodeBase64_dot
  rw [refused] at decoded
  cases decoded

/-- A file that is cut, by its first line. -/
theorem cut_cons {place : Place} {first line : Text} {rest : List Text} :
    Cut place (first :: rest) line ↔ Cut (place.next first) rest first := by
  rw [Cut, Cut, List.foldl_cons, List.getLastD_cons]

/-- A file that was left is not cut. -/
theorem not_cut_done {lines : List Text} {line : Text} : ¬ Cut .done lines line := by
  have stays (lines : List Text) : lines.foldl Place.next .done = .done := by
    induction lines with
    | nil => rfl
    | cons first rest ih => exact ih
  rintro ⟨inside, -⟩
  rw [stays] at inside
  cases inside

/-- A file that ends at a place is cut when it is within a block and the last line is decoded. -/
theorem cut_nil {place : Place} {line : Text} :
    Cut place [] line ↔ place.inside = true ∧ ∃ payload, decodeBase64 line = .ok payload := Iff.rfl

/-- The three lines of a transaction leave the file where it was. -/
theorem cut_tx {guid sighash payload line : Text} {rest : List Text} {bytes : List UInt8}
    (other : guid ≠ ".".toList) (decoded : decodeBase64 payload = .ok bytes) :
    Cut .guid (guid :: sighash :: payload :: rest) line ↔ Cut .guid rest payload := by
  have first : Place.next .guid guid = .sighash := if_neg other
  have last : Place.next .payload payload = .guid := by
    rw [Place.next, decoded]
  rw [cut_cons, cut_cons, cut_cons, first]
  change Cut (Place.next .payload payload) rest payload ↔ _
  rw [last]

/-- A line that is not decoded in the place of a payload leaves the file. -/
theorem not_cut_tx {guid sighash payload line : Text} {rest : List Text} {halt : Halt}
    (other : guid ≠ ".".toList) (refused : decodeBase64 payload = .error halt) :
    ¬ Cut .guid (guid :: sighash :: payload :: rest) line := by
  have first : Place.next .guid guid = .sighash := if_neg other
  have last : Place.next .payload payload = .done := by
    rw [Place.next, refused]
  rw [cut_cons, cut_cons, cut_cons, first]
  change ¬ Cut (Place.next .payload payload) rest payload
  rw [last]
  exact not_cut_done

/-- A file that ends before the payload of a transaction is cut when its last line is decoded. -/
theorem cut_short {lines : List Text} {line : Text} (other : lines.headD line ≠ ".".toList)
    (short : lines.length < 3) :
    Cut .guid lines line ↔
      ∃ payload, decodeBase64 (lines.tail.tail.headD (lines.tail.headD (lines.headD line))) =
        .ok payload := by
  match lines with
  | [] => exact ⟨And.right, fun decoded => ⟨rfl, decoded⟩⟩
  | [guid] =>
    have first : Place.next .guid guid = .sighash := if_neg other
    rw [cut_cons, first]
    exact ⟨And.right, fun decoded => ⟨rfl, decoded⟩⟩
  | [guid, sighash] =>
    have first : Place.next .guid guid = .sighash := if_neg other
    rw [cut_cons, cut_cons, first]
    exact ⟨And.right, fun decoded => ⟨rfl, decoded⟩⟩
  | _ :: _ :: _ :: _ =>
    simp only [List.length_cons] at short
    omega

/-- At a number it does not matter which line was read last. -/
theorem cut_number {lines : List Text} (line other : Text) :
    Cut .number lines line ↔ Cut .number lines other := by
  cases lines with
  | nil => exact ⟨fun cut => absurd cut.1 Bool.false_ne_true,
      fun cut => absurd cut.1 Bool.false_ne_true⟩
  | cons first rest => rw [cut_cons, cut_cons]

/-- The number and the signer of a block lead into it. -/
theorem cut_block {lines : List Text} {number : Int} (there : lines.headD [] ≠ [])
    (read : getBigint (lines.headD []) false = .ok number) (small : number < 2147483647) :
    Cut .number lines [] ↔ Cut .guid lines.tail.tail (lines.tail.headD (lines.headD [])) := by
  have first : Place.next .number (lines.headD []) = .signer := by
    rw [Place.next, if_neg there, read]
    exact if_pos small
  match lines with
  | [] => exact absurd rfl there
  | [line] =>
    rw [cut_cons]
    change Cut (Place.next .number line) [] line ↔ Cut .guid [] line
    rw [show Place.next .number line = .signer from first]
    rfl
  | line :: signer :: rest =>
    rw [cut_cons, show Place.next .number line = .signer from first, cut_cons]
    rfl

/-- A line that is no small number ends the list. -/
theorem not_cut_number {lines : List Text} (there : lines.headD [] ≠ [])
    (unread : ∀ number, getBigint (lines.headD []) false = .ok number →
      ¬ number < 2147483647) : ¬ Cut .number lines [] := by
  match lines with
  | [] => exact absurd rfl there
  | line :: rest =>
    have first : Place.next .number line = .done := by
      change line ≠ [] at there
      change ∀ number, getBigint line false = .ok number → _ at unread
      rw [Place.next, if_neg there]
      cases read : getBigint line false with
      | error failure => rfl
      | ok number => exact if_neg (unread number read)
    rw [cut_cons, first]
    exact not_cut_done

/-- The lines after a block are some of the lines. -/
theorem TxLines.length_le {last : Text} {lines rest : List Text} {txs : List LoadedTx}
    (listed : TxLines last lines txs rest) : rest.length ≤ lines.length := by
  induction listed with
  | close => exact Nat.le_succ _
  | stay => exact Nat.le_refl _
  | tx _ _ _ ih =>
    simp only [List.length_cons]
    omega

/-- No block ends before the payload of a transaction. -/
theorem TxLines.not_short {last : Text} {lines rest : List Text} {txs : List LoadedTx}
    (other : lines.headD last ≠ ".".toList) (short : lines.length < 3) :
    ¬ TxLines last lines txs rest := by
  intro listed
  cases listed with
  | close => exact other rfl
  | stay => exact other rfl
  | tx =>
    simp only [List.length_cons] at short
    omega

/-- A block does not end in front of a transaction. -/
theorem TxLines.front {last guid sighash line : Text} {lines rest : List Text}
    {txs : List LoadedTx} (other : guid ≠ ".".toList)
    (listed : TxLines last (guid :: sighash :: line :: lines) txs rest) :
    ∃ payload later, decodeBase64 line = .ok payload ∧ TxLines line lines later rest := by
  cases listed with
  | close => exact absurd rfl other
  | tx _ decoded later => exact ⟨_, _, decoded, later⟩

/-- What is listed before the end starts with a block. -/
theorem Listings.front {lines : List Text} {listings : List Listing}
    (listed : Listings lines listings) (there : lines.headD [] ≠ []) :
    ∃ number txs rest later, getBigint (lines.headD []) false = .ok number ∧
      number < 2147483647 ∧
      TxLines (lines.tail.headD (lines.headD [])) lines.tail.tail txs rest ∧
      Listings rest later := by
  cases listed with
  | nil => exact absurd rfl there
  | empty => exact absurd rfl there
  | cons _ read small listed others => exact ⟨_, _, _, _, read, small, listed, others⟩

/-- The transactions of a block leave the file at the next block. -/
theorem TxLines.cut_iff {last : Text} {lines rest : List Text} {txs : List LoadedTx}
    (listed : TxLines last lines txs rest) :
    Cut .guid lines last ↔ Cut .number rest [] := by
  induction listed with
  | close => rw [cut_cons, cut_number]; rfl
  | stay =>
    obtain ⟨halt, refused⟩ := decodeBase64_dot
    constructor
    · rintro ⟨-, payload, decoded⟩
      exact absurd (refused.symm.trans decoded) (by simp)
    · rintro ⟨inside, -⟩
      cases inside
  | tx other decoded _ ih => rw [cut_tx other decoded, ih]

/-- A file that lists blocks is not cut. -/
theorem Listings.not_cut {lines : List Text} {listings : List Listing}
    (listed : Listings lines listings) (line : Text) : ¬ Cut .number lines line := by
  induction listed generalizing line with
  | nil =>
    rintro ⟨inside, -⟩
    cases inside
  | empty =>
    rw [cut_cons]
    exact not_cut_done
  | @cons line' signer number lines rest txs later there read small listed _ ih =>
    have first : Place.next .number line' = .signer := by
      rw [Place.next, if_neg there, read]
      exact if_pos small
    rw [cut_cons, first, cut_cons]
    change ¬ Cut .guid lines signer
    rw [listed.cut_iff]
    exact ih []

/-- The transactions of a block are determined by the lines. -/
theorem TxLines.unique {last : Text} {lines rest rest' : List Text} {txs txs' : List LoadedTx}
    (listed : TxLines last lines txs rest) (again : TxLines last lines txs' rest') :
    txs = txs' ∧ rest = rest' := by
  induction listed generalizing txs' with
  | close =>
    cases again with
    | close => exact ⟨rfl, rfl⟩
    | tx other => exact absurd rfl other
  | stay => cases again; exact ⟨rfl, rfl⟩
  | tx other decoded _ ih =>
    cases again with
    | close => exact absurd rfl other
    | tx _ decoded' later =>
      obtain rfl := Except.ok.inj (decoded.symm.trans decoded')
      obtain ⟨rfl, rfl⟩ := ih later
      exact ⟨rfl, rfl⟩

/-- The blocks of a file are determined by the lines. -/
theorem Listings.unique {lines : List Text} {listings listings' : List Listing}
    (listed : Listings lines listings) (again : Listings lines listings') :
    listings = listings' := by
  induction listed generalizing listings' with
  | nil => cases again; rfl
  | empty =>
    cases again with
    | empty => rfl
    | cons there => exact absurd rfl there
  | cons there read _ txLines _ ih =>
    cases again with
    | empty => exact absurd rfl there
    | cons _ read' _ txLines' later =>
      obtain rfl := Except.ok.inj (read.symm.trans read')
      obtain ⟨rfl, rfl⟩ := txLines.unique txLines'
      rw [ih later]

/-- A block stands in front of the others. -/
theorem Listings.block {lines rest : List Text} {number : Int} {txs : List LoadedTx}
    {later : List Listing} (there : lines.headD [] ≠ [])
    (read : getBigint (lines.headD []) false = .ok number) (small : number < 2147483647)
    (listed : TxLines (lines.tail.headD (lines.headD [])) lines.tail.tail txs rest)
    (others : Listings rest later) :
    Listings lines
      (⟨⟨lines.tail.headD (lines.headD []), txs⟩, number.toNat⟩ :: later) := by
  match lines with
  | [] => exact absurd rfl there
  | [line] =>
    -- the signer would be the number again, and a dot is none
    have dot : line = ".".toList := by
      change TxLines line [] txs rest at listed
      cases listed
      rfl
    subst dot
    have unread : (getBigint ".".toList false).isOk = false := by decide +kernel
    change getBigint ".".toList false = .ok number at read
    rw [read] at unread
    cases unread
  | line :: signer :: lines => exact .cons there read small listed others

/-- Transactions are recorded one after another. -/
theorem Listing.recordedFrom_cons (block : Int) (first : Nat) (tx : LoadedTx)
    (txs : List LoadedTx) :
    recordedFrom block first (tx :: txs) =
      recordedFrom block (first + 1) txs ++ [(tx.guid, ⟨block, first⟩)] := by
  rw [recordedFrom, List.zipIdx_cons, List.map_cons, List.reverse_cons, recordedFrom]

/-- The positions of the first block come last. -/
theorem Listing.positions_cons (listing : Listing) (later : List Listing) :
    positions (listing :: later) = positions later ++ listing.recorded := by
  rw [positions, List.reverse_cons, List.flatMap_append, List.flatMap_singleton, positions]

/-! ## Reading lines -/

/-- At the end a line stays as it is. -/
theorem InputStream.getline_end {stream : InputStream} (ended : stream.lines = []) (line : Text) :
    stream.getline line = (line, stream) := by
  rw [InputStream.lines] at ended
  rw [InputStream.getline]
  split at ended
  · exact absurd ended (List.splitOn_ne_nil _ _)
  · rename_i bad
    rw [if_neg bad]

/-- Before the end the next line is read. -/
theorem InputStream.getline_line {stream : InputStream} {first : Text} {more : List Text}
    (left : stream.lines = first :: more) (line : Text) :
    (stream.getline line).1 = first ∧ (stream.getline line).2.lines = more := by
  rw [InputStream.lines] at left
  rw [InputStream.getline]
  split at left
  · rename_i good
    rw [if_pos good]
    have parts := List.takeWhile_append_dropWhile (p := (· != '\n')) (l := stream.rest)
    have clean : ∀ c ∈ stream.rest.takeWhile (· != '\n'), (c == '\n') = false := by
      intro c listed
      have kept := List.mem_takeWhile_imp listed
      simpa using kept
    cases found : stream.rest.dropWhile (· != '\n') with
    | nil =>
      rw [found, List.append_nil] at parts
      rw [parts] at clean
      rw [Text.lines, List.splitOn_eq_singleton_of_beq_eq_false clean] at left
      obtain ⟨rfl, rfl⟩ := List.cons.inj left
      exact ⟨rfl, rfl⟩
    | cons c rest =>
      have newline : (c == '\n') = true := by
        have stopped := List.head_dropWhile_not (· != '\n') (l := stream.rest)
          (by rw [found]; exact List.cons_ne_nil _ _)
        simp only [found, List.head_cons] at stopped
        simpa using stopped
      rw [found] at parts
      rw [Text.lines, ← parts, List.splitOn_eq_splitOnP,
        List.splitOnP_append_cons_of_forall_mem clean _ newline] at left
      obtain ⟨rfl, rfl⟩ := List.cons.inj left
      exact ⟨rfl, rfl⟩
  · cases left

namespace Loader

/-- The lines that are left. -/
def lines (loader : Loader) : List Text := loader.migrationData.lines

section Lines

variable (loader : Loader)

/-- The next line, or the same one at the end. -/
@[simp] theorem getline_line : loader.getline.line = loader.lines.headD loader.line := by
  rw [getline, lines]
  cases left : loader.migrationData.lines with
  | nil => rw [InputStream.getline_end left]; rfl
  | cons first more => exact (InputStream.getline_line left loader.line).1

/-- The lines after the next one. -/
@[simp] theorem getline_lines : loader.getline.lines = loader.lines.tail := by
  rw [lines, lines, getline]
  cases left : loader.migrationData.lines with
  | nil => rw [InputStream.getline_end left]; exact left
  | cons first more => exact (InputStream.getline_line left loader.line).2

/-- Reading a line leaves the blocks. -/
@[simp] theorem getline_blocks : loader.getline.blocks = loader.blocks := rfl

/-- Reading a line leaves the positions. -/
@[simp] theorem getline_txguid2prevblockidx :
    loader.getline.txguid2prevblockidx = loader.txguid2prevblockidx := rfl

/-- A new line leaves the lines. -/
@[simp] theorem declareLine_lines : loader.declareLine.lines = loader.lines := rfl

/-- A new line is empty. -/
@[simp] theorem declareLine_line : loader.declareLine.line = [] := rfl

/-- A new line leaves the blocks. -/
@[simp] theorem declareLine_blocks : loader.declareLine.blocks = loader.blocks := rfl

/-- A new line leaves the positions. -/
@[simp] theorem declareLine_txguid2prevblockidx :
    loader.declareLine.txguid2prevblockidx = loader.txguid2prevblockidx := rfl

/-- Recording a position leaves the lines. -/
@[simp] theorem record_lines (block : Int) (txCount : Nat) :
    (loader.record block txCount).lines = loader.lines := rfl

/-- Recording a position leaves the line. -/
@[simp] theorem record_line (block : Int) (txCount : Nat) :
    (loader.record block txCount).line = loader.line := rfl

/-- Recording a position leaves the blocks. -/
@[simp] theorem record_blocks (block : Int) (txCount : Nat) :
    (loader.record block txCount).blocks = loader.blocks := rfl

/-- Recording a position puts it in front. -/
@[simp] theorem record_txguid2prevblockidx (block : Int) (txCount : Nat) :
    (loader.record block txCount).txguid2prevblockidx =
      (loader.line, ⟨block, txCount⟩) :: loader.txguid2prevblockidx := rfl

end Lines

/-! ## The inner loop -/

section Inner

variable {blockIdx : Int} {fuel txCount : Nat} {loader : Loader} {b : LoadedBlock}

/-- What a pass that reads no dot does, by the lines that are left. -/
theorem loadTxs_pass (blockIdx : Int) (txCount : Nat) (b : LoadedBlock)
    (other : loader.lines.headD loader.line ≠ ".".toList) :
    ∃ after : Loader,
      after.lines = loader.lines.tail.tail.tail ∧
      after.line = loader.lines.tail.tail.headD
        (loader.lines.tail.headD (loader.lines.headD loader.line)) ∧
      after.blocks = loader.blocks ∧
      after.txguid2prevblockidx = (loader.lines.headD loader.line, ⟨blockIdx - 1, txCount⟩) ::
        loader.txguid2prevblockidx ∧
      ∀ fuel, loadTxs blockIdx (fuel + 1) loader txCount b =
        match decodeBase64 after.line with
        | .error halt => some (.error halt)
        | .ok payload => loadTxs blockIdx fuel after (txCount + 1)
            { b with txs := b.txs ++ [⟨loader.lines.tail.headD (loader.lines.headD loader.line),
              loader.lines.headD loader.line, payload⟩] } := by
  refine ⟨((loader.getline.record (blockIdx - 1) txCount).getline).getline, by simp, by simp,
    by simp, by simp, fun fuel => ?_⟩
  rw [loadTxs]
  simp only [getline_line loader, if_neg other]
  simp

/-- At the end of the file a line that is decoded is read again in each pass. -/
theorem loadTxs_endless (ended : loader.lines = []) {payload : List UInt8}
    (decoded : decodeBase64 loader.line = .ok payload) :
    loadTxs blockIdx fuel loader txCount b = none := by
  induction fuel generalizing loader txCount b with
  | zero => rfl
  | succ fuel ih =>
    have other : loader.lines.headD loader.line ≠ ".".toList := by
      rw [ended]
      exact ne_dot_of_decoded decoded
    obtain ⟨after, left, line, -, -, pass⟩ :=
      loadTxs_pass blockIdx txCount b other
    rw [ended] at left line
    change after.line = loader.line at line
    rw [← line] at decoded
    rw [pass, decoded]
    exact ih left decoded

/-- The inner loop does not need all of its passes. -/
theorem loadTxs_mono {more : Nat} {result : Except Halt (Loader × LoadedBlock)}
    (loaded : loadTxs blockIdx fuel loader txCount b = some result) (enough : fuel ≤ more) :
    loadTxs blockIdx more loader txCount b = some result := by
  induction fuel generalizing more loader txCount b with
  | zero => cases loaded
  | succ fuel ih =>
    obtain ⟨more, rfl⟩ := Nat.exists_eq_add_of_le' enough
    by_cases dot : loader.lines.headD loader.line = ".".toList
    · rw [loadTxs] at loaded
      rw [← Nat.add_assoc, loadTxs]
      simpa only [getline_line, if_pos dot] using loaded
    · obtain ⟨after, -, -, -, -, pass⟩ := loadTxs_pass blockIdx txCount b dot
      rw [pass] at loaded
      rw [← Nat.add_assoc, pass]
      split at loaded
      · exact loaded
      · exact ih loaded (Nat.le_add_left _ _)

/-- The inner loop ends with the block, ends by an exception, or never ends; the last it does
exactly on a file that is cut. -/
theorem loadTxs_cases (blockIdx : Int) (loader : Loader) (txCount : Nat) (b : LoadedBlock) :
    (∃ (txs : List LoadedTx) (after : Loader) (fuel : Nat),
      TxLines loader.line loader.lines txs after.lines ∧
      after.blocks = loader.blocks ∧
      after.txguid2prevblockidx = Listing.recordedFrom (blockIdx - 1) txCount txs ++
        loader.txguid2prevblockidx ∧
      loadTxs blockIdx fuel loader txCount b =
        some (.ok (after, { b with txs := b.txs ++ txs }))) ∨
    ((∀ txs rest, ¬ TxLines loader.line loader.lines txs rest) ∧
      ¬ Cut .guid loader.lines loader.line ∧ ∃ (halt : Halt) (fuel : Nat),
        loadTxs blockIdx fuel loader txCount b = some (.error halt)) ∨
    (Cut .guid loader.lines loader.line ∧
      ∀ fuel, loadTxs blockIdx fuel loader txCount b = none) := by
  induction size : loader.lines.length using Nat.strong_induction_on
    generalizing loader txCount b with
  | _ count ih =>
    by_cases dot : loader.lines.headD loader.line = ".".toList
    · refine .inl ⟨[], loader.getline, 1, ?_, rfl, rfl, ?_⟩
      · rw [getline_lines]
        cases left : loader.lines with
        | nil =>
          rw [left] at dot
          rw [show loader.line = ".".toList from dot]
          exact .stay
        | cons first rest =>
          rw [left] at dot
          obtain rfl : first = ".".toList := dot
          exact .close
      · rw [loadTxs]
        simp only [getline_line, if_pos dot, List.append_nil]
    · obtain ⟨after, leftAfter, line, blocks, map, pass⟩ := loadTxs_pass blockIdx txCount b dot
      by_cases short : loader.lines.length < 3
      · have ended : after.lines = [] := by
          rw [leftAfter, List.eq_nil_iff_length_eq_zero]
          simp only [List.length_tail]
          omega
        rw [cut_short dot short, ← line]
        cases decoded : decodeBase64 after.line with
        | error halt =>
          exact .inr (.inl ⟨fun _ _ => TxLines.not_short dot short, by simp, halt, 1,
            by rw [pass, decoded]⟩)
        | ok bytes =>
          refine .inr (.inr ⟨⟨bytes, rfl⟩, fun fuel => ?_⟩)
          cases fuel with
          | zero => rfl
          | succ fuel =>
            rw [pass, decoded]
            exact loadTxs_endless ended decoded
      · obtain ⟨guid, sighash, payload, rest, left⟩ : ∃ guid sighash payload rest,
            loader.lines = guid :: sighash :: payload :: rest := by
          match loader.lines, short with
          | [], short | [_], short | [_, _], short => exact absurd (by simp) short
          | guid :: sighash :: payload :: rest, _ => exact ⟨guid, sighash, payload, rest, rfl⟩
        rw [left] at leftAfter line dot map pass ⊢
        change guid ≠ ".".toList at dot
        change after.lines = rest at leftAfter
        change after.line = payload at line
        cases decoded : decodeBase64 payload with
        | error halt =>
          refine .inr (.inl ⟨fun txs rest listed => ?_, not_cut_tx dot decoded, halt, 1,
            by rw [pass, line, decoded]⟩)
          obtain ⟨_, _, read, _⟩ := listed.front dot
          exact absurd (decoded.symm.trans read) (by simp)
        | ok bytes =>
          have shorter : after.lines.length < count := by
            rw [← size, left, leftAfter]
            exact Nat.lt_succ_of_lt (Nat.lt_succ_of_lt (Nat.lt_succ_self _))
          have passes (fuel : Nat) : loadTxs blockIdx (fuel + 1) loader txCount b =
              loadTxs blockIdx fuel after (txCount + 1)
                { b with txs := b.txs ++ [⟨sighash, guid, bytes⟩] } := by
            rw [pass, line, decoded]
            rfl
          have again := ih _ shorter after (txCount + 1)
            { b with txs := b.txs ++ [⟨sighash, guid, bytes⟩] } rfl
          rw [leftAfter, line] at again
          rw [cut_tx dot decoded]
          rcases again with ⟨txs, last, fuel, listed, kept, recorded, loaded⟩ |
            ⟨unlisted, whole, halt, fuel, fails⟩ | ⟨open', never⟩
          · refine .inl ⟨⟨sighash, guid, bytes⟩ :: txs, last, fuel + 1, .tx dot decoded listed,
              kept.trans blocks, ?_, ?_⟩
            · rw [recorded, map, Listing.recordedFrom_cons, List.append_assoc]
              rfl
            · rw [passes, loaded, List.append_assoc]
              rfl
          · refine .inr (.inl ⟨fun txs rest listed => ?_, whole, halt, fuel + 1,
              by rw [passes, fails]⟩)
            obtain ⟨_, _, _, later⟩ := listed.front dot
            exact unlisted _ _ later
          · refine .inr (.inr ⟨open', fun fuel => ?_⟩)
            cases fuel with
            | zero => rfl
            | succ fuel => rw [passes, never]

end Inner

/-! ## The outer loop -/

/-- A small index is there after the list has grown, and the block is put there. -/
theorem resize_small (blockIdx : Nat) (small : blockIdx < 2147483647)
    (blocks : List LoadedBlock) :
    ∃ grown, resize blocks blockIdx = .ok grown ∧
      ∀ b, grown.set blockIdx b = Listing.place blocks ⟨b, blockIdx⟩ := by
  by_cases few : blocks.length ≤ blockIdx
  · refine ⟨_, by rw [resize, if_pos few, if_neg (Nat.ne_of_lt small)], fun b => rfl⟩
  · refine ⟨blocks, by rw [resize, if_neg few], fun b => ?_⟩
    have enough : blockIdx + 1 - blocks.length = 0 := by omega
    rw [Listing.place]
    simp only [enough, List.replicate_zero, List.append_nil]

/-- The largest `int` is no index. -/
theorem resize_large {blocks : List LoadedBlock} (few : blocks.length ≤ 2147483647) :
    resize blocks 2147483647 = .error .undefinedSum := by
  rw [resize, if_pos few, if_pos rfl]

/-- A placed block is in the list. -/
theorem place_length (blocks : List LoadedBlock) (listing : Listing) :
    (Listing.place blocks listing).length = max blocks.length (listing.blockIdx + 1) := by
  rw [Listing.place, List.length_set, List.length_append, List.length_replicate]
  omega

section Outer

variable {loader : Loader} {fuel : Nat}

/-- The outer loop ends at an empty line. -/
theorem load_empty (fuel : Nat) (empty : loader.lines.headD [] = []) :
    ∃ after : Loader, after.blocks = loader.blocks ∧
      after.txguid2prevblockidx = loader.txguid2prevblockidx ∧
      load (fuel + 1) loader = some (.ok after) := by
  refine ⟨loader.declareLine.getline, rfl, rfl, ?_⟩
  rw [load]
  simp only [getline_line, declareLine_line, declareLine_lines, empty, List.length_nil, if_true]

/-- The outer loop ends at a line that is no number. -/
theorem load_unread (fuel : Nat) {failure : Exception} (there : loader.lines.headD [] ≠ [])
    (unread : getBigint (loader.lines.headD []) false = .error failure) :
    load (fuel + 1) loader = some (.error (.thrown failure)) := by
  have long : (loader.lines.headD []).length ≠ 0 := mt List.eq_nil_of_length_eq_zero there
  rw [load]
  simp only [getline_line, declareLine_line, declareLine_lines, if_neg long, unread]

/-- The outer loop ends at a number that is too large. -/
theorem load_large (fuel : Nat) {number : Int} (few : loader.blocks.length ≤ 2147483647)
    (there : loader.lines.headD [] ≠ [])
    (read : getBigint (loader.lines.headD []) false = .ok number)
    (large : ¬ number < 2147483647) :
    load (fuel + 1) loader = some (.error .undefinedSum) := by
  have long : (loader.lines.headD []).length ≠ 0 := mt List.eq_nil_of_length_eq_zero there
  have last : convertToInt number = 2147483647 := by
    rw [convertToInt]
    omega
  rw [load]
  simp only [getline_line, declareLine_line, declareLine_lines, if_neg long, read,
    last, getline_blocks, declareLine_blocks, resize_large few]

/-- What a pass of the outer loop does at the number of a block. -/
theorem load_pass {number : Int} (there : loader.lines.headD [] ≠ [])
    (read : getBigint (loader.lines.headD []) false = .ok number)
    (small : number < 2147483647) :
    ∃ grown : Loader, grown.lines = loader.lines.tail.tail ∧
      grown.line = loader.lines.tail.headD (loader.lines.headD []) ∧
      grown.txguid2prevblockidx = loader.txguid2prevblockidx ∧
      (∀ b, grown.blocks.set number.toNat b =
        Listing.place loader.blocks ⟨b, number.toNat⟩) ∧
      ∀ fuel, load (fuel + 1) loader =
        match loadTxs number.toNat fuel grown 0 ⟨grown.line, []⟩ with
        | none => none
        | some (.error halt) => some (.error halt)
        | some (.ok (after, b)) =>
          load fuel { after with blocks := after.blocks.set number.toNat b } := by
  have long : (loader.lines.headD []).length ≠ 0 := mt List.eq_nil_of_length_eq_zero there
  have index : convertToInt number = number.toNat := by
    rw [convertToInt]
    omega
  obtain ⟨blocks, resized, placed⟩ :=
    resize_small number.toNat (by omega) loader.blocks
  refine ⟨{ loader.declareLine.getline.getline with blocks := blocks }, ?_, ?_, rfl, placed,
    fun fuel => ?_⟩
  · change loader.declareLine.getline.getline.lines = _
    simp
  · change loader.declareLine.getline.getline.line = _
    simp
  · rw [load]
    simp only [getline_line, declareLine_line, declareLine_lines, if_neg long, read, index,
      getline_blocks, declareLine_blocks, resized]

/-- The outer loop does not need all of its passes. -/
theorem load_mono {more : Nat} {result : Except Halt Loader}
    (loaded : load fuel loader = some result) (enough : fuel ≤ more) :
    load more loader = some result := by
  induction fuel generalizing more loader with
  | zero => cases loaded
  | succ fuel ih =>
    obtain ⟨more, rfl⟩ := Nat.exists_eq_add_of_le' enough
    rw [load] at loaded
    rw [← Nat.add_assoc, load]
    dsimp only at loaded ⊢
    split at loaded
    · rename_i empty
      rw [if_pos empty]
      exact loaded
    · rename_i there
      rw [if_neg there]
      split at loaded
      · exact loaded
      · split at loaded
        · exact loaded
        · split at loaded
          · cases loaded
          · rename_i failed
            rw [loadTxs_mono failed (Nat.le_add_left _ _)]
            exact loaded
          · rename_i closed
            rw [loadTxs_mono closed (Nat.le_add_left _ _)]
            exact ih loaded (Nat.le_add_left _ _)

/-- At the number of a block the outer loop comes to the next block, ends by an exception, or never
ends. -/
theorem load_block {number : Int} (there : loader.lines.headD [] ≠ [])
    (read : getBigint (loader.lines.headD []) false = .ok number)
    (small : number < 2147483647) :
    (∃ (txs : List LoadedTx) (next : Loader) (passes : Nat),
      TxLines (loader.lines.tail.headD (loader.lines.headD [])) loader.lines.tail.tail txs
        next.lines ∧
      next.blocks = Listing.place loader.blocks
        ⟨⟨loader.lines.tail.headD (loader.lines.headD []), txs⟩, number.toNat⟩ ∧
      next.txguid2prevblockidx = Listing.recordedFrom (number.toNat - 1) 0 txs ++
        loader.txguid2prevblockidx ∧
      ∀ fuel, passes ≤ fuel → load (fuel + 1) loader = load fuel next) ∨
    ((∀ listings, ¬ Listings loader.lines listings) ∧ ¬ Cut .number loader.lines [] ∧
      ∃ (halt : Halt) (fuel : Nat), load fuel loader = some (.error halt)) ∨
    (Cut .number loader.lines [] ∧ ∀ fuel, load fuel loader = none) := by
  obtain ⟨grown, left, line, map, placed, pass⟩ := load_pass there read small
  have inner := loadTxs_cases number.toNat grown 0 ⟨grown.line, []⟩
  rw [cut_block there read small]
  rw [left, line] at inner
  rcases inner with ⟨txs, after, passes, listed, kept, recorded, closed⟩ |
    ⟨unlisted, whole, halt, passes, failed⟩ | ⟨open', never⟩
  · refine .inl ⟨txs, { after with blocks := after.blocks.set number.toNat ⟨_, txs⟩ }, passes,
      listed, by rw [kept, placed], ?_, fun fuel enough => ?_⟩
    · rw [← map]
      exact recorded
    · rw [pass, line, loadTxs_mono closed enough]
      rfl
  · refine .inr (.inl ⟨fun listings listed => ?_, whole, halt, passes + 1, ?_⟩)
    · obtain ⟨_, _, _, _, _, _, inside, _⟩ := listed.front there
      exact unlisted _ _ inside
    · rw [pass, line, failed]
  · refine .inr (.inr ⟨open', fun fuel => ?_⟩)
    cases fuel with
    | zero => rfl
    | succ fuel => rw [pass, line, never]

/-- The outer loop ends after the listed blocks, ends by an exception, or never ends; the last it
does exactly on a file that is cut. -/
theorem load_cases (loader : Loader) (few : loader.blocks.length ≤ 2147483647) :
    (∃ (listings : List Listing) (after : Loader) (fuel : Nat),
      Listings loader.lines listings ∧
      after.blocks = listings.foldl Listing.place loader.blocks ∧
      after.txguid2prevblockidx = Listing.positions listings ++ loader.txguid2prevblockidx ∧
      load fuel loader = some (.ok after)) ∨
    ((∀ listings, ¬ Listings loader.lines listings) ∧ ¬ Cut .number loader.lines [] ∧
      ∃ (halt : Halt) (fuel : Nat), load fuel loader = some (.error halt)) ∨
    (Cut .number loader.lines [] ∧ ∀ fuel, load fuel loader = none) := by
  induction size : loader.lines.length using Nat.strong_induction_on generalizing loader with
  | _ count ih =>
    by_cases there : loader.lines.headD [] = []
    · obtain ⟨after, blocks, map, loaded⟩ := load_empty 0 there
      refine .inl ⟨[], after, 1, ?_, blocks, map, loaded⟩
      cases left : loader.lines with
      | nil => exact .nil
      | cons first rest =>
        rw [left] at there
        obtain rfl : first = [] := there
        exact .empty
    · cases read : getBigint (loader.lines.headD []) false with
      | error failure =>
        have unread (number : Int)
            (found : getBigint (loader.lines.headD []) false = .ok number) :
            ¬ number < 2147483647 := by
          rw [read] at found
          cases found
        refine .inr (.inl ⟨fun listings listed => ?_, not_cut_number there unread, _, 1,
          load_unread 0 there read⟩)
        obtain ⟨number, _, _, _, found, small, _⟩ := listed.front there
        exact unread number found small
      | ok number =>
        by_cases small : number < 2147483647
        · rcases load_block there read small with
            ⟨txs, next, passes, listed, blocks, recorded, turn⟩ | failed | endless
          · have shorter : next.lines.length < count := by
              have fewer := listed.length_le
              have head : loader.lines ≠ [] := by
                intro ended
                exact there (by rw [ended]; rfl)
              rw [List.length_tail, List.length_tail] at fewer
              have positive := List.length_pos_iff.mpr head
              omega
            have few' : next.blocks.length ≤ 2147483647 := by
              rw [blocks, place_length]
              change max _ (number.toNat + 1) ≤ _
              omega
            have again := ih _ shorter next few' rfl
            rw [blocks, recorded] at again
            rw [cut_block there read small, listed.cut_iff]
            rcases again with ⟨later, last, fuel, others, stored, recorded', loaded⟩ |
              ⟨unlisted, whole, halt, fuel, failed⟩ | ⟨open', never⟩
            · refine .inl ⟨_, last, max passes fuel + 1, .block there read small listed others,
                stored, ?_, ?_⟩
              · rw [recorded', Listing.positions_cons, List.append_assoc]
                rfl
              · rw [turn _ (Nat.le_max_left _ _)]
                exact load_mono loaded (Nat.le_max_right _ _)
            · refine .inr (.inl ⟨fun listings whole => ?_, whole, halt, max passes fuel + 1, ?_⟩)
              · obtain ⟨_, _, _, _, _, _, inside, others⟩ := whole.front there
                obtain ⟨-, rfl⟩ := listed.unique inside
                exact unlisted _ others
              · rw [turn _ (Nat.le_max_left _ _)]
                exact load_mono failed (Nat.le_max_right _ _)
            · refine .inr (.inr ⟨open', fun fuel => ?_⟩)
              by_contra ended
              obtain ⟨result, ended⟩ := Option.ne_none_iff_exists'.mp ended
              have ended := load_mono ended (Nat.le_succ_of_le (Nat.le_max_left fuel passes))
              rw [turn _ (Nat.le_max_right _ _), never] at ended
              cases ended
          · exact .inr (.inl failed)
          · exact .inr (.inr endless)
        · have large (number' : Int)
              (found : getBigint (loader.lines.headD []) false = .ok number') :
              ¬ number' < 2147483647 := by
            obtain rfl := Except.ok.inj (read.symm.trans found)
            exact small
          refine .inr (.inl ⟨fun listings listed => ?_, not_cut_number there large, _, 1,
            load_large 0 few there read small⟩)
          obtain ⟨number', _, _, _, found, small', _⟩ := listed.front there
          exact large number' found small'

end Outer

end Loader

/-! ## Positions -/

/-- A recorded guid stands at its position: the block is the one after the position's. -/
def Loader.Placed (loader : Loader) : Prop :=
  ∀ (guid : Text) (entry : Text × TxPos),
    (loader.txguid2prevblockidx.find? fun entry => entry.1 == guid) = some entry →
    ∃ (block : Nat) (b : LoadedBlock) (tx : LoadedTx), entry.2.block = (block : Int) - 1 ∧
      loader.blocks[block]? = some b ∧ b.txs[entry.2.txIdx]? = some tx ∧ tx.guid = guid

/-- A guid of a block that is listed again later is listed again later. -/
def Relisted (listings : List Listing) : Prop :=
  ∀ (earlier : List Listing) (listing : Listing) (later : List Listing),
    listings = earlier ++ listing :: later →
    (∃ other ∈ later, other.blockIdx = listing.blockIdx) →
    ∀ tx ∈ listing.txs, ∃ other ∈ later, ∃ again ∈ other.txs, again.guid = tx.guid

namespace Listing

/-- A recorded position is the one of a transaction. -/
theorem mem_recordedFrom {block : Int} {first : Nat} {txs : List LoadedTx}
    {entry : Text × TxPos} :
    entry ∈ recordedFrom block first txs ↔
      ∃ i tx, txs[i]? = some tx ∧ entry = (tx.guid, ⟨block, first + i⟩) := by
  rw [recordedFrom, List.mem_reverse, List.mem_map]
  constructor
  · rintro ⟨⟨tx, i⟩, listed, rfl⟩
    obtain ⟨after, found⟩ := List.mk_mem_zipIdx_iff_le_and_getElem?_sub.mp listed
    refine ⟨i - first, tx, found, ?_⟩
    rw [Nat.add_sub_cancel' after]
  · rintro ⟨i, tx, listed, rfl⟩
    refine ⟨(tx, first + i), ?_, rfl⟩
    rw [List.mk_mem_zipIdx_iff_le_and_getElem?_sub]
    exact ⟨Nat.le_add_right _ _, by rw [Nat.add_sub_cancel_left, listed]⟩

/-- The recorded positions are the ones of the listed blocks. -/
theorem mem_positions {listings : List Listing} {entry : Text × TxPos} :
    entry ∈ positions listings ↔ ∃ listing ∈ listings, entry ∈ listing.recorded := by
  rw [positions, List.mem_flatMap]
  simp only [List.mem_reverse]

/-- The position of a guid is the one in the last block that lists it. -/
theorem find_positions (earlier : List Listing) {listing : Listing} {later : List Listing}
    {guid : Text} (there : ∃ tx ∈ listing.txs, tx.guid = guid)
    (last : ∀ other ∈ later, ¬ ∃ tx ∈ other.txs, tx.guid = guid) :
    ∃ i tx, listing.txs[i]? = some tx ∧ tx.guid = guid ∧
      (positions (earlier ++ listing :: later)).find? (fun entry => entry.1 == guid) =
        some (guid, ⟨(listing.blockIdx : Int) - 1, i⟩) := by
  have parts : positions (earlier ++ listing :: later) =
      positions later ++ (listing.recorded ++ positions earlier) := by
    rw [positions, List.reverse_append, List.reverse_cons, List.flatMap_append,
      List.flatMap_append, List.flatMap_singleton, List.append_assoc]
    rfl
  have absent : (positions later).find? (fun entry => entry.1 == guid) = none := by
    rw [List.find?_eq_none]
    rintro entry listed same
    obtain ⟨other, later, listed⟩ := mem_positions.mp listed
    obtain ⟨i, tx, found, rfl⟩ := mem_recordedFrom.mp listed
    exact last other later ⟨tx, List.mem_of_getElem? found, eq_of_beq same⟩
  obtain ⟨tx, listed, rfl⟩ := there
  obtain ⟨i, found⟩ := List.getElem?_of_mem listed
  have present : ((listing.recorded).find? fun entry => entry.1 == tx.guid).isSome := by
    rw [List.find?_isSome]
    exact ⟨_, mem_recordedFrom.mpr ⟨i, tx, found, rfl⟩, beq_self_eq_true _⟩
  obtain ⟨entry, first⟩ := Option.isSome_iff_exists.mp present
  have same : entry.1 = tx.guid :=
    eq_of_beq (List.find?_some (p := fun entry : Text × TxPos => entry.1 == tx.guid) first)
  obtain ⟨j, other, found', rfl⟩ := mem_recordedFrom.mp (List.mem_of_find?_eq_some first)
  refine ⟨j, other, found', same, ?_⟩
  rw [parts, List.find?_append, absent, List.find?_append, first, ← same, Nat.zero_add]
  rfl

/-- A placed block is at its index. -/
theorem place_self (blocks : List LoadedBlock) (listing : Listing) :
    (place blocks listing)[listing.blockIdx]? = some listing.toLoadedBlock := by
  rw [place, List.getElem?_set_self]
  rw [List.length_append, List.length_replicate]
  omega

/-- A placed block leaves the others. -/
theorem place_ne {blocks : List LoadedBlock} {listing : Listing} {i : Nat} {b : LoadedBlock}
    (other : listing.blockIdx ≠ i) (there : blocks[i]? = some b) :
    (place blocks listing)[i]? = some b := by
  rw [place, List.getElem?_set_ne other,
    List.getElem?_append_left (List.getElem?_eq_some_iff.mp there).1, there]

/-- The last block of an index stays. -/
theorem foldl_place {blocks : List LoadedBlock} {later : List Listing} {i : Nat}
    {b : LoadedBlock} (there : blocks[i]? = some b)
    (others : ∀ other ∈ later, other.blockIdx ≠ i) :
    (later.foldl place blocks)[i]? = some b := by
  induction later generalizing blocks with
  | nil => exact there
  | cons listing later ih =>
    exact ih (place_ne (others listing List.mem_cons_self) there)
      fun other listed => others other (List.mem_cons_of_mem _ listed)

/-- The last listing of a block is the one that is kept. -/
theorem foldl_place_last (blocks : List LoadedBlock) (earlier : List Listing)
    {listing : Listing} {later : List Listing}
    (others : ∀ other ∈ later, other.blockIdx ≠ listing.blockIdx) :
    ((earlier ++ listing :: later).foldl place blocks)[listing.blockIdx]? =
      some listing.toLoadedBlock := by
  rw [List.foldl_append, List.foldl_cons]
  exact foldl_place (place_self _ _) others

end Listing

/-- Among the members of a list that have a property there is a last one. -/
theorem exists_last {α : Type} {P : α → Prop} {list : List α} (there : ∃ a ∈ list, P a) :
    ∃ earlier a later, list = earlier ++ a :: later ∧ P a ∧ ∀ other ∈ later, ¬ P other := by
  induction list with
  | nil =>
    obtain ⟨a, listed, -⟩ := there
    cases listed
  | cons first rest ih =>
    by_cases more : ∃ a ∈ rest, P a
    · obtain ⟨earlier, a, later, rfl, holds, last⟩ := ih more
      exact ⟨first :: earlier, a, later, rfl, holds, last⟩
    · obtain ⟨a, listed, holds⟩ := there
      rcases List.mem_cons.mp listed with rfl | listed
      · exact ⟨[], a, rest, rfl, holds, fun other listed holds => more ⟨other, listed, holds⟩⟩
      · exact absurd ⟨a, listed, holds⟩ more

/-- The guids of listed blocks stand at their positions when those of replaced blocks are listed
again. -/
theorem Loader.placed_iff {loader : Loader} {listings : List Listing}
    (blocks : loader.blocks = listings.foldl Listing.place [])
    (map : loader.txguid2prevblockidx = Listing.positions listings) :
    loader.Placed ↔ Relisted listings := by
  constructor
  · rintro placed earlier listing later rfl again tx listed
    by_contra missing
    have last (other : Listing) (after : other ∈ later) :
        ¬ ∃ again ∈ other.txs, again.guid = tx.guid := fun lists => missing ⟨other, after, lists⟩
    obtain ⟨i, -, -, -, found⟩ := Listing.find_positions earlier ⟨tx, listed, rfl⟩ last
    rw [← map] at found
    obtain ⟨block, b, tx', index, stored, held, same⟩ := placed _ _ found
    obtain rfl : block = listing.blockIdx := by
      change (listing.blockIdx : Int) - 1 = _ at index
      omega
    obtain ⟨before, other, rest, rfl, samePlace, others⟩ := exists_last again
    rw [← samePlace] at others
    have kept := Listing.foldl_place_last [] (earlier ++ listing :: before) others
    rw [List.append_assoc, List.cons_append, ← blocks, samePlace, stored] at kept
    obtain rfl := Option.some.inj kept
    exact last other (List.mem_append_right _ List.mem_cons_self)
      ⟨tx', List.mem_of_getElem? held, same⟩
  · intro relisted guid entry found
    have listed := List.mem_of_find?_eq_some found
    have same : entry.1 = guid :=
      eq_of_beq (List.find?_some (p := fun entry : Text × TxPos => entry.1 == guid) found)
    rw [map] at listed found
    obtain ⟨listing, there, listed⟩ := Listing.mem_positions.mp listed
    obtain ⟨i, tx, held, rfl⟩ := Listing.mem_recordedFrom.mp listed
    obtain ⟨earlier, listing', later, rfl, lists, last⟩ :=
      exists_last (P := fun listing : Listing => ∃ tx ∈ listing.txs, tx.guid = guid)
        ⟨listing, there, tx, List.mem_of_getElem? held, same⟩
    obtain ⟨j, tx', held', same', found'⟩ :=
      Listing.find_positions earlier lists last
    rw [found] at found'
    have others (other : Listing) (after : other ∈ later) :
        other.blockIdx ≠ listing'.blockIdx := by
      intro replaced
      obtain ⟨again, after', lists⟩ := relisted earlier listing' later rfl ⟨other, after, replaced⟩
        tx' (List.mem_of_getElem? held')
      rw [same'] at lists
      exact last again after' lists
    rw [Option.some.inj found']
    exact ⟨listing'.blockIdx, listing'.toLoadedBlock, tx', rfl,
      by rw [blocks]; exact Listing.foldl_place_last [] earlier others, held', same'⟩

/-! ## Reading always ends -/

/-- The loops end on a content, and what they load stands where it is recorded. -/
structure Loads (content : Text) : Prop where
  /-- The loops end. -/
  ends : ∃ fuel result, Loader.load fuel (Loader.start content) = some result
  /-- The recorded guids stand at their positions. -/
  placed : ∀ fuel loader, Loader.load fuel (Loader.start content) = some (.ok loader) →
    loader.Placed

/-- Reading the file ends exactly when it is not cut. -/
theorem ends_iff (content : Text) :
    (∃ fuel result, Loader.load fuel (Loader.start content) = some result) ↔
      ¬ Cut .number content.lines [] := by
  rcases Loader.load_cases (Loader.start content) (Nat.zero_le _) with
    ⟨listings, after, fuel, listed, -, -, loaded⟩ | ⟨-, whole, halt, fuel, failed⟩ |
      ⟨open', never⟩
  · exact iff_of_true ⟨fuel, _, loaded⟩ (listed.not_cut [])
  · exact iff_of_true ⟨fuel, _, failed⟩ whole
  · refine iff_of_false ?_ (not_not_intro open')
    rintro ⟨fuel, result, ended⟩
    rw [never] at ended
    cases ended

/-- The file is read as it should be exactly when it does not end within a block, and when the
guids of a block that is listed again are listed again too. -/
theorem loads_iff (content : Text) :
    Loads content ↔ ¬ Cut .number content.lines [] ∧
      ∀ listings, Listings content.lines listings → Relisted listings := by
  rcases Loader.load_cases (Loader.start content) (Nat.zero_le _) with
    ⟨listings, after, fuel, listed, blocks, map, loaded⟩ | ⟨unlisted, whole, halt, fuel, failed⟩ |
      ⟨open', never⟩
  · have placed := Loader.placed_iff blocks (map.trans (List.append_nil _))
    constructor
    · intro loads
      refine ⟨listed.not_cut [], fun others again => ?_⟩
      rw [← listed.unique again]
      exact placed.mp (loads.placed fuel after loaded)
    · rintro ⟨-, relisted⟩
      refine ⟨⟨fuel, _, loaded⟩, fun fuel' loader ended => ?_⟩
      have same := (Loader.load_mono loaded (Nat.le_max_left fuel fuel')).symm.trans
        (Loader.load_mono ended (Nat.le_max_right fuel fuel'))
      obtain rfl := Except.ok.inj (Option.some.inj same)
      exact placed.mpr (relisted listings listed)
  · refine iff_of_true ⟨⟨fuel, _, failed⟩, fun fuel' loader ended => ?_⟩
      ⟨whole, fun listings listed => absurd listed (unlisted listings)⟩
    have same := (Loader.load_mono failed (Nat.le_max_left fuel fuel')).symm.trans
      (Loader.load_mono ended (Nat.le_max_right fuel fuel'))
    cases Option.some.inj same
  · refine iff_of_false (fun loads => ?_) fun whole => whole.1 open'
    obtain ⟨fuel, result, ended⟩ := loads.ends
    rw [never] at ended
    cases ended

/-- A file that ends after the signer of a block is read for ever. -/
theorem reading_endless : ¬ ∀ content, Loads content := by
  intro always
  have whole := (ends_iff "1\nk\n".toList).mp (always "1\nk\n".toList).ends
  have open' : Cut .number (Text.lines "1\nk\n".toList) [] :=
    ⟨by decide +kernel, [], by decide +kernel⟩
  exact whole open'

end Creditcoin
