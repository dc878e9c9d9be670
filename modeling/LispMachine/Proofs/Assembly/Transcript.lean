import LispMachine.Proofs.Assembly.Patching
import Mathlib.Data.List.Forall2
import Mathlib.Data.List.Induction

/-!
What an assembler was told and what it made of it. A transcript lists the calls of an assembler,
each with the offset that the assembler reported when the call was made; `Built` says that all of
them succeeded, from an empty assembler on. `AssemblyCall.Asks` says, apart from how the assembler
works, which instruction a call asks for: a branch goes to what its label was bound to when the
branch was written, and otherwise, like every handler, to the label's last binding; an operand that
stands for a value is a place of the finished pool where that value is.

While calls are made, the code is what writing a list of drafts gives, the notes are those of the
drafts, and each draft becomes what its call asks for, whatever the labels are bound to in the end
(`Drafted`, kept by each call in `Drafted.step`). So the finished code is that of the instructions
that were asked for, at the offsets that were reported, and reading it from the start gives them
back exactly when the operand of each fits (`Built.finish_lists`). Only a branch that is emitted
with its target can fail to fit (`fits_of_asks`); `finish_unreadable` is one that does.
-/

set_option autoImplicit false

namespace LispMachine

/-! ### Calls and what they ask for -/

/-- A call that tells an assembler something. -/
inductive AssemblyCall where
  | newLabel
  | bind (label : Nat)
  | emit (instruction : Instruction)
  | constant (value : Value)
  | addConstant (value : Value)
  | varRef (symbol : Value)
  | varSet (symbol : Value)
  | varBind (symbol : Value)
  | operation (op : Operation)
  | branch (kind : BranchKind) (form : BranchForm) (label : Nat)
  | pushHandler (kind : HandlerKind) (label : Nat)

/-- The calls made, each with the offset reported when it was made. -/
abbrev Transcript := List (Nat × AssemblyCall)

namespace AssemblyCall

/-- Make the call. -/
def run : AssemblyCall → Assembly Unit
  | .newLabel => (fun _ ↦ ()) <$> Assembly.label
  | .bind label => Assembly.bindLabel label
  | .emit instruction => Assembly.emit instruction
  | .constant value => Assembly.constant value
  | .addConstant value => (fun _ ↦ ()) <$> Assembly.addConstant value
  | .varRef symbol => Assembly.varRef symbol
  | .varSet symbol => Assembly.varSet symbol
  | .varBind symbol => Assembly.varBind symbol
  | .operation op => Assembly.operation op
  | .branch kind form label => Assembly.branch kind form label
  | .pushHandler kind label => Assembly.pushHandler kind label

/-- The label that the call names, if it names one, was given out by the assembler. -/
def Issued (assembler : Assembler) : AssemblyCall → Prop
  | .bind label | .branch _ _ label | .pushHandler _ label => label < assembler.labels.size
  | _ => True

/-- Whether the call writes no instruction. -/
def isSilent : AssemblyCall → Bool
  | .newLabel | .bind _ | .addConstant _ => true
  | _ => false

/-- Whether the call binds a label. -/
def binds (label : Nat) : AssemblyCall → Bool
  | .bind other => other == label
  | _ => false

end AssemblyCall

/-- The offset that a label is bound to after the calls: where its last binding was made. -/
def Transcript.lastBinding (calls : Transcript) (label : Nat) : Option Nat :=
  calls.foldl (fun bound entry ↦ if entry.2.binds label then some entry.1 else bound) none

/-- The instruction that a call asks for, when the labels are bound as `now` says at the time of the
call, and in the end as `last` says, and the finished function has the given constants. -/
inductive AssemblyCall.Asks (constants : Array Value) (last now : Nat → Option Nat) :
    AssemblyCall → Instruction → Prop
  | emit (instruction : Instruction) : Asks constants last now (.emit instruction) instruction
  | operation (op : Operation) : Asks constants last now (.operation op) (.operation op)
  | constant {value : Value} {index : Nat} (hplace : constants[index]? = some value) :
      Asks constants last now (.constant value) (.constant index)
  | varRef {symbol : Value} {index : Nat} (hplace : constants[index]? = some symbol) :
      Asks constants last now (.varRef symbol) (.varRef index)
  | varSet {symbol : Value} {index : Nat} (hplace : constants[index]? = some symbol) :
      Asks constants last now (.varSet symbol) (.varSet index)
  | varBind {symbol : Value} {index : Nat} (hplace : constants[index]? = some symbol) :
      Asks constants last now (.varBind symbol) (.varBind index)
  | branch {kind : BranchKind} {form : BranchForm} {label target : Nat}
      (htarget : (now label <|> last label) = some target) :
      Asks constants last now (.branch kind form label) (.branch kind form target)
  | pushHandler {kind : HandlerKind} {label target : Nat} (htarget : last label = some target) :
      Asks constants last now (.pushHandler kind label) (.pushHandler kind target)

/-- A list has, in order, one entry for each call of a transcript that writes an instruction, at the
offset reported for the call. `asks` relates the labels at the time of the call, the call and the
entry. -/
inductive Transcribes {Entry : Type} (asks : (Nat → Option Nat) → AssemblyCall → Entry → Prop) :
    Transcript → List (Nat × Entry) → Prop
  | nil : Transcribes asks [] []
  | silent {calls : Transcript} {listing : List (Nat × Entry)} {offset : Nat}
      {call : AssemblyCall} (hcalls : Transcribes asks calls listing)
      (hsilent : call.isSilent = true) : Transcribes asks (calls ++ [(offset, call)]) listing
  | writes {calls : Transcript} {listing : List (Nat × Entry)} {offset : Nat}
      {call : AssemblyCall} {entry : Entry} (hcalls : Transcribes asks calls listing)
      (hasks : asks calls.lastBinding call entry) :
      Transcribes asks (calls ++ [(offset, call)]) (listing ++ [(offset, entry)])

/-- The calls of a transcript were all made, from an empty assembler on, and succeeded. -/
inductive Built : Transcript → Assembler → Prop
  | start : Built [] {}
  | call {calls : Transcript} {assembler after : Assembler} {call : AssemblyCall}
      (hbefore : Built calls assembler) (hissued : call.Issued assembler)
      (hrun : call.run assembler = .ok () after) :
      Built (calls ++ [(assembler.code.size, call)]) after

/-- Reading code from an offset on gives exactly the entries of a listing, each at its offset, and
ends at `finish`. -/
def Code.Lists (code : Code) : Nat → List (Nat × Instruction) → Nat → Prop
  | start, [], finish => start = finish
  | start, (offset, instruction) :: rest, finish =>
    offset = start ∧ code.decode start = .ok (instruction, start + instruction.length) ∧
      code.Lists (start + instruction.length) rest finish

theorem Placed.lists_iff_reads {code : Code} {start finish : Nat}
    {listing : List (Nat × Instruction)} (hplaced : Placed start listing) :
    code.Lists start listing finish ↔ code.Reads start (listing.map Prod.snd) finish := by
  induction listing generalizing start with
  | nil => exact Iff.rfl
  | cons entry rest ih =>
    obtain ⟨hoffset, hrest⟩ := hplaced
    simp only [Code.Lists, List.map_cons, Code.Reads, hoffset, true_and, ih hrest]

/-- Every entry of what the code lists is read at its offset. -/
theorem Code.Lists.decode_of_mem {code : Code} {start finish : Nat}
    {listing : List (Nat × Instruction)} (hlists : code.Lists start listing finish)
    {offset : Nat} {instruction : Instruction} (hentry : (offset, instruction) ∈ listing) :
    code.decode offset = .ok (instruction, offset + instruction.length) := by
  induction listing generalizing start with
  | nil => cases hentry
  | cons entry rest ih =>
    obtain ⟨hoffset, hdecode, hrest⟩ := hlists
    rcases List.mem_cons.mp hentry with rfl | hlater
    · obtain rfl : offset = start := hoffset
      exact hdecode
    · exact ih hrest hlater

/-! ### Transcripts -/

theorem Transcript.lastBinding_concat (calls : Transcript) (offset : Nat) (call : AssemblyCall)
    (label : Nat) :
    Transcript.lastBinding (calls ++ [(offset, call)]) label =
      if call.binds label then some offset else calls.lastBinding label := by
  simp [Transcript.lastBinding]

/-- A label is bound to an offset that was reported. -/
theorem Transcript.exists_mem_of_lastBinding {calls : Transcript} {label target : Nat}
    (hbound : calls.lastBinding label = some target) : ∃ call, (target, call) ∈ calls := by
  induction calls using List.reverseRecOn with
  | nil => cases hbound
  | append_singleton calls entry ih =>
    rw [lastBinding_concat] at hbound
    split_ifs at hbound with hbinds
    · cases hbound
      exact ⟨entry.2, by simp⟩
    · obtain ⟨call, hcall⟩ := ih hbound
      exact ⟨call, List.mem_append_left _ hcall⟩

/-- Each entry stands for a call of the transcript, made when some of the calls had been made. -/
theorem Transcribes.exists_call {Entry : Type}
    {asks : (Nat → Option Nat) → AssemblyCall → Entry → Prop} {calls : Transcript}
    {listing : List (Nat × Entry)} (hcalls : Transcribes asks calls listing)
    {entry : Nat × Entry} (hentry : entry ∈ listing) :
    ∃ (earlier : Transcript) (call : AssemblyCall), (∀ other ∈ earlier, other ∈ calls) ∧
      (entry.1, call) ∈ calls ∧ asks earlier.lastBinding call entry.2 := by
  induction hcalls with
  | nil => cases hentry
  | silent _ _ ih =>
    obtain ⟨earlier, call, hearlier, hcall, hasks⟩ := ih hentry
    exact ⟨earlier, call, fun other hother ↦ List.mem_append_left _ (hearlier other hother),
      List.mem_append_left _ hcall, hasks⟩
  | @writes calls _ _ call _ _ hasks ih =>
    rcases List.mem_append.mp hentry with hbefore | hlast
    · obtain ⟨earlier, call, hearlier, hcall, hasks⟩ := ih hbefore
      exact ⟨earlier, call, fun other hother ↦ List.mem_append_left _ (hearlier other hother),
        List.mem_append_left _ hcall, hasks⟩
    · obtain rfl := List.mem_singleton.mp hlast
      exact ⟨calls, call, fun _ hother ↦ List.mem_append_left _ hother, by simp, hasks⟩

theorem exists_concat_of_forall₂ {First Second : Type} {related : First → Second → Prop}
    {front : List First} {last : First} {others : List Second}
    (hrelated : List.Forall₂ related (front ++ [last]) others) :
    ∃ front' last', others = front' ++ [last'] ∧ List.Forall₂ related front front' ∧
      related last last' := by
  induction front generalizing others with
  | nil =>
    obtain ⟨last', rest, hlast, hrest, rfl⟩ := List.forall₂_cons_left_iff.mp hrelated
    obtain rfl := List.forall₂_nil_left_iff.mp hrest
    exact ⟨[], last', rfl, .nil, hlast⟩
  | cons first front ih =>
    obtain ⟨first', rest, hfirst, hrest, rfl⟩ := List.forall₂_cons_left_iff.mp hrelated
    obtain ⟨front', last', rfl, hfront, hlast⟩ := ih hrest
    exact ⟨first' :: front', last', rfl, .cons hfirst hfront, hlast⟩

/-- Each call that writes an instruction has its entry. -/
theorem Transcribes.exists_entry {Entry : Type}
    {asks : (Nat → Option Nat) → AssemblyCall → Entry → Prop} {calls : Transcript}
    {listing : List (Nat × Entry)} (hcalls : Transcribes asks calls listing) {offset : Nat}
    {call : AssemblyCall} (hcall : (offset, call) ∈ calls) (hwrites : call.isSilent = false) :
    ∃ now entry, (offset, entry) ∈ listing ∧ asks now call entry := by
  induction hcalls with
  | nil => cases hcall
  | silent _ hsilent ih =>
    rcases List.mem_append.mp hcall with hbefore | hlast
    · exact ih hbefore
    · cases List.mem_singleton.mp hlast
      rw [hsilent] at hwrites
      cases hwrites
  | writes _ hasks ih =>
    rcases List.mem_append.mp hcall with hbefore | hlast
    · obtain ⟨now, entry, hentry, hasked⟩ := ih hbefore
      exact ⟨now, entry, List.mem_append_left _ hentry, hasked⟩
    · cases List.mem_singleton.mp hlast
      exact ⟨_, _, by simp, hasks⟩

/-- The entries of a listing can be taken for others at the same offsets that are asked for too. -/
theorem Transcribes.forall₂ {First Second : Type}
    {asks : (Nat → Option Nat) → AssemblyCall → First → Prop}
    {asks' : (Nat → Option Nat) → AssemblyCall → Second → Prop} {calls : Transcript}
    {listing : List (Nat × First)} {listing' : List (Nat × Second)}
    {related : Nat × First → Nat × Second → Prop} (hcalls : Transcribes asks calls listing)
    (hrelated : List.Forall₂ related listing listing')
    (hoffset : ∀ entry entry', related entry entry' → entry'.1 = entry.1)
    (hasks : ∀ now call entry entry', related entry entry' → asks now call entry.2 →
      asks' now call entry'.2) : Transcribes asks' calls listing' := by
  induction hcalls generalizing listing' with
  | nil =>
    cases hrelated
    exact .nil
  | silent _ hsilent ih => exact .silent (ih hrelated) hsilent
  | writes _ hlast ih =>
    obtain ⟨front, ⟨offset', entry'⟩, rfl, hfront, hentry⟩ := exists_concat_of_forall₂ hrelated
    obtain rfl : offset' = _ := hoffset _ _ hentry
    exact .writes (ih hfront) (hasks _ _ _ _ hentry hlast)

/-! ### What a call does -/

/-- What a draft must be for a call: however the labels are bound in the end, it becomes what the
call asks for. -/
def AssemblyCall.Drafts (constants : Array Value) (now : Nat → Option Nat) (call : AssemblyCall)
    (draft : Draft) : Prop :=
  ∀ last instruction, draft.Settles last instruction → call.Asks constants last now instruction

/-- Every constant of one pool has the same place in another. -/
def PoolGrows (constants longer : Array Value) : Prop :=
  ∀ (index : Nat) (value : Value), constants[index]? = some value → longer[index]? = some value

theorem poolGrows_push (constants : Array Value) (value : Value) :
    PoolGrows constants (constants.push value) := by
  intro index other hplace
  have hindex : index < constants.size := (Array.getElem?_eq_some_iff.mp hplace).1
  rw [Array.getElem?_push_lt hindex, ← hplace, Array.getElem?_eq_getElem hindex]

theorem AssemblyCall.Asks.mono {constants longer : Array Value} {last now : Nat → Option Nat}
    {call : AssemblyCall} {instruction : Instruction}
    (hasks : call.Asks constants last now instruction) (hgrows : PoolGrows constants longer) :
    call.Asks longer last now instruction := by
  cases hasks with
  | emit => exact .emit _
  | operation => exact .operation _
  | constant hplace => exact .constant (hgrows _ _ hplace)
  | varRef hplace => exact .varRef (hgrows _ _ hplace)
  | varSet hplace => exact .varSet (hgrows _ _ hplace)
  | varBind hplace => exact .varBind (hgrows _ _ hplace)
  | branch htarget => exact .branch htarget
  | pushHandler htarget => exact .pushHandler htarget

/-- The place that is found or made for a value holds the value, and only the pool can have changed,
by growing. -/
theorem Assembler.constantIndex_spec (assembler : Assembler) (value : Value) :
    ∃ index constants, assembler.constantIndex value = (index, { assembler with constants }) ∧
      constants[index]? = some value ∧ PoolGrows assembler.constants constants := by
  unfold Assembler.constantIndex
  cases hfound : assembler.constants.findIdx? (· == value) with
  | some index =>
    obtain ⟨hindex, hsame, -⟩ := Array.findIdx?_eq_some_iff_getElem.mp hfound
    refine ⟨index, assembler.constants, rfl, ?_, fun _ _ hplace ↦ hplace⟩
    rw [Array.getElem?_eq_getElem hindex, eq_of_beq hsame]
  | none =>
    exact ⟨assembler.constants.size, assembler.constants.push value, rfl, by simp,
      poolGrows_push _ _⟩

theorem Assembly.emit_eq_ok {instruction : Instruction} {assembler after : Assembler}
    (hrun : Assembly.emit instruction assembler = .ok () after) :
    instruction.Writable assembler.code.size ∧ after = { assembler with
      code := assembler.code.extend (instruction.spelling assembler.code.size) } := by
  unfold Assembly.emit at hrun
  by_cases hwritable : instruction.Writable assembler.code.size
  · rw [CodeWriter.instruction_of_writable hwritable] at hrun
    cases hrun
    exact ⟨hwritable, rfl⟩
  · obtain ⟨reason, hfail⟩ := CodeWriter.instruction_of_not_writable hwritable
    rw [hfail] at hrun
    cases hrun

theorem Assembly.branch_apply (kind : BranchKind) (form : BranchForm) (label : Nat)
    (assembler : Assembler) :
    Assembly.branch kind form label assembler =
      (match assembler.offsetOf? label with
        | some target => Assembly.emit (.branch kind form target)
        | none => do
          Assembly.emit (.branch kind form (assembler.code.size + 2))
          Assembly.addFixup ⟨assembler.code.size, label, form⟩ : Assembly Unit) assembler :=
  rfl

/-- Emitting and then noting the jump. -/
theorem Assembly.emit_addFixup_eq_ok {instruction : Instruction} {fixup : Fixup}
    {assembler after : Assembler}
    (hrun : (do Assembly.emit instruction; Assembly.addFixup fixup : Assembly Unit) assembler =
      .ok () after) :
    instruction.Writable assembler.code.size ∧ after = { assembler with
      code := assembler.code.extend (instruction.spelling assembler.code.size)
      fixups := assembler.fixups.push fixup } := by
  change EStateM.bind _ _ assembler = _ at hrun
  unfold EStateM.bind at hrun
  cases hemit : Assembly.emit instruction assembler with
  | error reason shorter =>
    rw [hemit] at hrun
    cases hrun
  | ok _ middle =>
    rw [hemit] at hrun
    obtain ⟨hwritable, rfl⟩ := Assembly.emit_eq_ok hemit
    cases hrun
    exact ⟨hwritable, rfl⟩

/-- Emitting an instruction with the place of a value in the pool, where it is put if need be. -/
theorem Assembly.emit_place_apply (value : Value) (instruction : Nat → Instruction)
    (assembler : Assembler) :
    (Assembly.constantIndex value >>= fun index ↦ Assembly.emit (instruction index)) assembler =
      Assembly.emit (instruction (assembler.constantIndex value).1)
        (assembler.constantIndex value).2 :=
  rfl

/-! ### What all calls keep -/

/-- The assembler holds the drafts of the calls: the code and the notes are theirs, and they become
what the calls ask for. -/
structure Drafted (calls : Transcript) (assembler : Assembler) (drafts : List (Nat × Draft)) :
    Prop where
  transcribes : Transcribes (AssemblyCall.Drafts assembler.constants) calls drafts
  placed : Placed 0 (writtenListing drafts)
  written : Code.appendAll #[] ((writtenListing drafts).map Prod.snd) = .ok assembler.code
  fixups : assembler.fixups.toList = draftFixups drafts
  labels : ∀ label, assembler.offsetOf? label = calls.lastBinding label
  reported : ∀ entry ∈ calls, entry.1 ≤ assembler.code.size

namespace Drafted

variable {calls : Transcript} {assembler after : Assembler} {drafts : List (Nat × Draft)}
  {call : AssemblyCall}

theorem transcribes_mono (hdrafted : Drafted calls assembler drafts) {constants : Array Value}
    (hgrows : PoolGrows assembler.constants constants) :
    Transcribes (AssemblyCall.Drafts constants) calls drafts := by
  have hsame : List.Forall₂ Eq drafts drafts := List.forall₂_same.mpr fun _ _ ↦ rfl
  refine hdrafted.transcribes.forall₂ hsame (fun _ _ heq ↦ congrArg Prod.fst heq.symm) ?_
  intro now call entry _ heq hdraft last instruction hsettles
  exact (hdraft last instruction (heq ▸ hsettles)).mono hgrows

/-- A call that writes no instruction. -/
theorem skip (hdrafted : Drafted calls assembler drafts) (hsilent : call.isSilent = true)
    (hcode : after.code = assembler.code) (hfixups : after.fixups = assembler.fixups)
    (hgrows : PoolGrows assembler.constants after.constants)
    (hlabels : ∀ label, after.offsetOf? label =
      if call.binds label then some assembler.code.size else assembler.offsetOf? label) :
    Drafted (calls ++ [(assembler.code.size, call)]) after drafts where
  transcribes := .silent (hdrafted.transcribes_mono hgrows) hsilent
  placed := hdrafted.placed
  written := by rw [hcode, hdrafted.written]
  fixups := by rw [hfixups, hdrafted.fixups]
  labels label := by rw [hlabels, Transcript.lastBinding_concat, hdrafted.labels]
  reported := by
    intro entry hentry
    rw [hcode]
    rcases List.mem_append.mp hentry with hbefore | hlast
    · exact hdrafted.reported entry hbefore
    · exact (List.mem_singleton.mp hlast ▸ Nat.le_refl _)

/-- A call that writes a draft, which it asks for. -/
theorem write (hdrafted : Drafted calls assembler drafts) {draft : Draft}
    (hwritable : draft.written.Writable assembler.code.size)
    (hcode : after.code =
      assembler.code.extend (draft.written.spelling assembler.code.size))
    (hfixups : after.fixups.toList =
      assembler.fixups.toList ++ (draft.fixup? assembler.code.size).toList)
    (hlabels : after.labels = assembler.labels)
    (hgrows : PoolGrows assembler.constants after.constants)
    (hbinds : ∀ label, call.binds label = false)
    (hdraft : call.Drafts after.constants calls.lastBinding draft) :
    Drafted (calls ++ [(assembler.code.size, call)]) after
      (drafts ++ [(assembler.code.size, draft)]) where
  transcribes := .writes (hdrafted.transcribes_mono hgrows) hdraft
  placed := by
    have hsize := Code.size_of_appendAll hdrafted.written
    rw [writtenListing, List.map_append]
    exact placed_concat.mpr ⟨hdrafted.placed, by simpa [writtenListing] using hsize⟩
  written := by
    have happended := Code.appendAll_concat hdrafted.written hwritable
    rw [hcode, ← happended]
    simp [writtenListing]
  fixups := by
    rw [hfixups, hdrafted.fixups]
    simp [draftFixups, List.filterMap_append, List.filterMap_cons]
    cases draft.fixup? assembler.code.size <;> rfl
  labels label := by
    rw [Transcript.lastBinding_concat, hbinds label, ← hdrafted.labels, Assembler.offsetOf?,
      hlabels]
    rfl
  reported := by
    intro entry hentry
    have hlonger : assembler.code.size ≤ after.code.size := by
      rw [hcode, Code.size_extend]
      omega
    rcases List.mem_append.mp hentry with hbefore | hlast
    · exact (hdrafted.reported entry hbefore).trans hlonger
    · obtain rfl := List.mem_singleton.mp hlast
      exact hlonger

/-- A call that emits an instruction for good. -/
theorem write_final (hdrafted : Drafted calls assembler drafts) {instruction : Instruction}
    {constants : Array Value} (hgrows : PoolGrows assembler.constants constants)
    (hrun : Assembly.emit instruction { assembler with constants } = .ok () after)
    (hbinds : ∀ label, call.binds label = false)
    (hasks : ∀ last, call.Asks constants last calls.lastBinding instruction) :
    Drafted (calls ++ [(assembler.code.size, call)]) after
      (drafts ++ [(assembler.code.size, .final instruction)]) := by
  obtain ⟨hwritable, rfl⟩ := Assembly.emit_eq_ok hrun
  refine hdrafted.write hwritable rfl (by simp [Draft.fixup?]) rfl hgrows hbinds ?_
  intro last _ hsettles
  cases hsettles
  exact hasks last

/-- A call that emits an instruction with the place of a value. -/
theorem write_place (hdrafted : Drafted calls assembler drafts) {value : Value}
    {instruction : Nat → Instruction}
    (hrun : (Assembly.constantIndex value >>= fun index ↦ Assembly.emit (instruction index))
      assembler = .ok () after)
    (hbinds : ∀ label, call.binds label = false)
    (hasks : ∀ (constants : Array Value) index last, constants[index]? = some value →
      call.Asks constants last calls.lastBinding (instruction index)) :
    ∃ drafts, Drafted (calls ++ [(assembler.code.size, call)]) after drafts := by
  obtain ⟨index, constants, hindex, hplace, hgrows⟩ := assembler.constantIndex_spec value
  rw [Assembly.emit_place_apply, hindex] at hrun
  exact ⟨_, hdrafted.write_final hgrows hrun hbinds fun last ↦ hasks constants index last hplace⟩

/-- A branch goes to where its label is bound, or waits for it. -/
theorem write_branch (hdrafted : Drafted calls assembler drafts) {kind : BranchKind}
    {form : BranchForm} {label : Nat}
    (hrun : Assembly.branch kind form label assembler = .ok () after) :
    ∃ drafts, Drafted (calls ++ [(assembler.code.size, .branch kind form label)]) after drafts := by
  have hnow := hdrafted.labels label
  rw [Assembly.branch_apply] at hrun
  cases hbound : assembler.offsetOf? label with
  | some target =>
    rw [hbound] at hrun hnow
    refine ⟨_, hdrafted.write_final (fun _ _ hplace ↦ hplace) hrun (fun _ ↦ rfl) fun last ↦ ?_⟩
    exact .branch (by rw [← hnow]; rfl)
  | none =>
    rw [hbound] at hrun hnow
    obtain ⟨hwritable, rfl⟩ := Assembly.emit_addFixup_eq_ok hrun
    have hdraft : (Draft.branch kind form label (assembler.code.size + 2)).written.Writable
        assembler.code.size := hwritable
    refine ⟨_, hdrafted.write hdraft rfl (by simp [Draft.fixup?]) rfl (fun _ _ hplace ↦ hplace)
      (fun _ ↦ rfl) ?_⟩
    intro last _ hsettles
    cases hsettles with
    | branch hlast => exact .branch (by rw [← hnow, hlast]; rfl)

/-- A handler waits for its label. -/
theorem write_handler (hdrafted : Drafted calls assembler drafts) {kind : HandlerKind}
    {label : Nat} (hrun : Assembly.pushHandler kind label assembler = .ok () after) :
    ∃ drafts, Drafted (calls ++ [(assembler.code.size, .pushHandler kind label)]) after drafts := by
  change (do
    Assembly.emit (.pushHandler kind 0)
    Assembly.addFixup ⟨assembler.code.size, label, .absolute⟩ : Assembly Unit) assembler = _ at hrun
  obtain ⟨hwritable, rfl⟩ := Assembly.emit_addFixup_eq_ok hrun
  have hdraft : (Draft.handler kind label).written.Writable assembler.code.size := hwritable
  refine ⟨_, hdrafted.write hdraft rfl (by simp [Draft.fixup?]) rfl (fun _ _ hplace ↦ hplace)
    (fun _ ↦ rfl) ?_⟩
  intro last _ hsettles
  cases hsettles with
  | handler hlast => exact .pushHandler hlast

/-- Every call keeps the code that of the drafts. -/
theorem step (hdrafted : Drafted calls assembler drafts) (hissued : call.Issued assembler)
    (hrun : call.run assembler = .ok () after) :
    ∃ drafts, Drafted (calls ++ [(assembler.code.size, call)]) after drafts := by
  have hsame : PoolGrows assembler.constants assembler.constants := fun _ _ hplace ↦ hplace
  cases call with
  | newLabel =>
    cases hrun
    refine ⟨drafts, hdrafted.skip rfl rfl rfl hsame fun label ↦ ?_⟩
    change (assembler.labels.push none)[label]?.join = assembler.labels[label]?.join
    rw [Array.getElem?_push]
    split_ifs with hnew
    · simp [hnew]
    · rfl
  | bind label =>
    cases hrun
    refine ⟨drafts, hdrafted.skip rfl rfl rfl hsame fun other ↦ ?_⟩
    have hlabel : label < assembler.labels.size := hissued
    simp only [AssemblyCall.binds, Assembler.offsetOf?, Array.getElem?_setIfInBounds]
    by_cases hother : label = other
    · simp [hother, hother ▸ hlabel]
    · simp [hother]
  | addConstant value =>
    cases hrun
    exact ⟨drafts, hdrafted.skip rfl rfl rfl (poolGrows_push _ _) fun _ ↦ rfl⟩
  | emit instruction =>
    exact ⟨_, hdrafted.write_final hsame hrun (fun _ ↦ rfl) fun _ ↦ .emit instruction⟩
  | operation op =>
    have hemit : Assembly.emit (.operation op) assembler = .ok () after := hrun
    exact ⟨_, hdrafted.write_final hsame hemit (fun _ ↦ rfl) fun _ ↦ .operation op⟩
  | constant value =>
    exact hdrafted.write_place hrun (fun _ ↦ rfl) fun _ _ _ hplace ↦ .constant hplace
  | varRef symbol =>
    exact hdrafted.write_place hrun (fun _ ↦ rfl) fun _ _ _ hplace ↦ .varRef hplace
  | varSet symbol =>
    exact hdrafted.write_place hrun (fun _ ↦ rfl) fun _ _ _ hplace ↦ .varSet hplace
  | varBind symbol =>
    exact hdrafted.write_place hrun (fun _ ↦ rfl) fun _ _ _ hplace ↦ .varBind hplace
  | branch kind form label => exact hdrafted.write_branch hrun
  | pushHandler kind label => exact hdrafted.write_handler hrun

end Drafted

theorem Built.exists_drafted {calls : Transcript} {assembler : Assembler}
    (hbuilt : Built calls assembler) : ∃ drafts, Drafted calls assembler drafts := by
  induction hbuilt with
  | start => exact ⟨[], .nil, trivial, rfl, rfl, fun _ ↦ rfl, nofun⟩
  | call _ hissued hrun ih =>
    obtain ⟨drafts, hdrafted⟩ := ih
    exact hdrafted.step hissued hrun

/-! ### The finished function -/

/-- A function of dynamic parameters is finished with the depth that its code needs from an empty
stack. -/
theorem Assembler.finish_dynamic {assembler : Assembler} {code : Code} {depth : Nat}
    (hresolve : assembler.resolve = .ok code) (hdepth : code.maxDepth 0 = .ok depth) :
    assembler.finish (.dynamic []) =
      .ok ⟨none, code, assembler.constants, depth, .dynamic [], none⟩ :=
  have hentry : 0 < UInt64.size := by decide
  finish_eq_ok_iff.mpr ⟨code, depth, hresolve, hentry, hdepth, rfl⟩

/-- The settled instructions take as many bytes as their drafts. -/
theorem totalLength_of_settled {offsetOf? : Nat → Option Nat} {drafts : List (Nat × Draft)}
    {listing : List (Nat × Instruction)}
    (hsettled : List.Forall₂ (SettlesAt offsetOf?) drafts listing) :
    totalLength (listing.map Prod.snd) = totalLength ((writtenListing drafts).map Prod.snd) := by
  induction hsettled with
  | nil => rfl
  | cons hfirst _ ih =>
    simp only [totalLength, writtenListing, List.map_cons, List.sum_cons, Prod.map] at ih ⊢
    rw [ih, hfirst.2.length_eq]

/-- With offsets below 2^63 a distance that fits in a byte is the plain one. -/
theorem near_of_relativeDistance_le {source target : Nat} (hsource : source < 2 ^ 63)
    (htarget : target < 2 ^ 63) (hdistance : relativeDistance source target ≤ 255) :
    source + 2 ≤ target + 128 ∧ target ≤ source + 2 + 127 := by
  unfold relativeDistance at hdistance
  omega

/-- Assumes: an instruction that a call asks for can be written at an offset, and the offsets are
below 2^63. It fits there, if it fits in case the call emits it as it is. -/
theorem fits_of_asks {constants : Array Value} {last now : Nat → Option Nat}
    {call : AssemblyCall} {instruction : Instruction} {offset : Nat}
    (hasks : call.Asks constants last now instruction) (hwritable : instruction.Writable offset)
    (hemitted : ∀ emitted, call = .emit emitted → emitted.Fits offset) (hoffset : offset < 2 ^ 63)
    (hlast : ∀ label target, last label = some target → target < 2 ^ 63)
    (hnow : ∀ label target, now label = some target → target < 2 ^ 63) :
    instruction.Fits offset := by
  cases hasks with
  | emit => exact hemitted _ rfl
  | @branch kind form label target htarget =>
    cases form with
    | absolute => exact hwritable
    | relative =>
      have hsmall : target < 2 ^ 63 := by
        cases hbound : now label with
        | some bound =>
          rw [hbound] at htarget
          cases htarget
          exact hnow label _ hbound
        | none =>
          rw [hbound] at htarget
          exact hlast label target htarget
      exact near_of_relativeDistance_le hoffset hsmall hwritable
  | _ => exact hwritable

/-- Assumes: calls of an assembler all succeeded, and so did finishing. There is a listing with the
instructions that the calls asked for, in order, at the offsets that the assembler reported; the
values asked for are in the finished pool. Reading the finished code from its start gives exactly
this listing if and only if every operand fits its form; and every operand does when those of the
instructions that were emitted as they are do, in code of less than 2^63 bytes. -/
theorem Built.finish_lists {calls : Transcript} {assembler : Assembler} {parameters : Parameters}
    {subject : Function} (hbuilt : Built calls assembler)
    (hfinish : assembler.finish parameters = .ok subject) :
    ∃ listing : List (Nat × Instruction),
      Transcribes (AssemblyCall.Asks subject.constants calls.lastBinding) calls listing ∧
      (subject.code.Lists 0 listing subject.code.size ↔
        ∀ entry ∈ listing, entry.2.Fits entry.1) ∧
      (subject.code.size < 2 ^ 63 →
        (∀ offset instruction, (offset, AssemblyCall.emit instruction) ∈ calls →
          instruction.Fits offset) →
        ∀ entry ∈ listing, entry.2.Fits entry.1) := by
  obtain ⟨drafts, hdrafted⟩ := hbuilt.exists_drafted
  obtain ⟨code, _, hresolve, -, -, hsubject⟩ := Assembler.finish_eq_ok_iff.mp hfinish
  obtain rfl : subject.code = code := hsubject ▸ rfl
  have hconstants : subject.constants = assembler.constants := hsubject ▸ rfl
  have hlabels : assembler.offsetOf? = calls.lastBinding := funext hdrafted.labels
  rw [Assembler.resolve_eq_foldlM, hdrafted.fixups, hlabels] at hresolve
  have hstart : Placed (Array.size (#[] : Code)) (writtenListing drafts) := hdrafted.placed
  obtain ⟨listing, hsettled, hplaced, happended⟩ :=
    exists_settled hstart hdrafted.written hresolve
  have hplaced : Placed 0 listing := hplaced
  have htranscribes :
      Transcribes (AssemblyCall.Asks subject.constants calls.lastBinding) calls listing :=
    hdrafted.transcribes.forall₂ hsettled (fun _ _ hentry ↦ hentry.1)
      fun now call entry entry' hentry hdraft ↦
        hconstants ▸ hdraft calls.lastBinding entry'.2 hentry.2
  refine ⟨listing, htranscribes, ?_, ?_⟩
  · have hreads := Code.reads_iff_allFit happended #[]
    rw [Array.append_empty] at hreads
    exact hplaced.lists_iff_reads.trans (hreads.trans hplaced.allPut_iff)
  · intro hsize hemitted entry hentry
    have hsame : assembler.code.size = subject.code.size := by
      rw [Code.size_of_appendAll hdrafted.written, Code.size_of_appendAll happended,
        totalLength_of_settled hsettled]
    have hreported : ∀ other ∈ calls, other.1 < 2 ^ 63 := fun other hother ↦
      Nat.lt_of_le_of_lt (hsame ▸ hdrafted.reported other hother) hsize
    obtain ⟨earlier, call, hearlier, hcall, hasks⟩ := htranscribes.exists_call hentry
    have hwritable : ∀ entry ∈ listing, entry.2.Writable entry.1 :=
      hplaced.allPut_iff.mp ((Code.appendAll_isOk_iff _ #[]).mp ⟨_, happended⟩)
    refine fits_of_asks hasks (hwritable entry hentry)
      (fun emitted hemit ↦ hemitted entry.1 emitted (hemit ▸ hcall)) (hreported _ hcall) ?_ ?_
    · intro label target hbound
      obtain ⟨other, hother⟩ := Transcript.exists_mem_of_lastBinding hbound
      exact hreported _ hother
    · intro label target hbound
      obtain ⟨other, hother⟩ := Transcript.exists_mem_of_lastBinding hbound
      exact hreported _ (hearlier _ hother)

/-- A branch over a return, to a label that is bound behind it, gets the offset of the label. -/
theorem Built.finish_lists_forward :
    ∃ (calls : Transcript) (assembler : Assembler) (subject : Function),
      Built calls assembler ∧ assembler.finish (.dynamic []) = .ok subject ∧
      (1, .branch .goto .relative 0) ∈ calls ∧ (4, .bind 0) ∈ calls ∧
      ∃ listing, Transcribes (AssemblyCall.Asks subject.constants calls.lastBinding) calls listing ∧
        subject.code.Lists 0 listing subject.code.size := by
  have hlabel : Built [(0, .newLabel)] { labels := #[none] } := .call .start trivial rfl
  have hconstant : Built [(0, .newLabel), (0, .constant .nil)]
      { code := #[0xC0], constants := #[.nil], labels := #[none] } := by
    refine .call hlabel trivial ?_
    rw [AssemblyCall.run, Assembly.constant, Assembly.emit_place_apply]
    simp only [Assembler.constantIndex, Array.findIdx?_empty]
    rfl
  have hbranch : Built [(0, .newLabel), (0, .constant .nil), (1, .branch .goto .relative 0)]
      { code := #[0xC0, 0xAA, 0x80], constants := #[.nil], labels := #[none],
        fixups := #[⟨1, 0, .relative⟩] } := .call hconstant Nat.one_pos rfl
  have hreturn : Built [(0, .newLabel), (0, .constant .nil), (1, .branch .goto .relative 0),
        (3, .emit .ret)]
      { code := #[0xC0, 0xAA, 0x80, 0x87], constants := #[.nil], labels := #[none],
        fixups := #[⟨1, 0, .relative⟩] } := .call hbranch trivial rfl
  have hbind : Built [(0, .newLabel), (0, .constant .nil), (1, .branch .goto .relative 0),
        (3, .emit .ret), (4, .bind 0)]
      { code := #[0xC0, 0xAA, 0x80, 0x87], constants := #[.nil], labels := #[some 4],
        fixups := #[⟨1, 0, .relative⟩] } := .call hreturn Nat.one_pos rfl
  have hbuilt : Built [(0, .newLabel), (0, .constant .nil), (1, .branch .goto .relative 0),
        (3, .emit .ret), (4, .bind 0), (4, .emit .ret)]
      { code := #[0xC0, 0xAA, 0x80, 0x87, 0x87], constants := #[.nil], labels := #[some 4],
        fixups := #[⟨1, 0, .relative⟩] } := .call hbind trivial rfl
  have hdepth : Code.maxDepth #[0xC0, 0xAA, 0x81, 0x87, 0x87] 0 = .ok 1 := by decide +kernel
  obtain ⟨listing, htranscribes, hlists, hfits⟩ :=
    hbuilt.finish_lists (Assembler.finish_dynamic rfl hdepth)
  refine ⟨_, _, _, hbuilt, Assembler.finish_dynamic rfl hdepth, by simp, by simp, listing,
    htranscribes, hlists.mpr ?_⟩
  refine hfits (by decide) fun offset instruction hemitted ↦ ?_
  simp only [List.mem_cons, Prod.mk.injEq, reduceCtorEq, AssemblyCall.emit.injEq, and_false,
    List.not_mem_nil, or_false, false_or] at hemitted
  rcases hemitted with ⟨-, rfl⟩ | ⟨-, rfl⟩ <;> trivial

/-- Code whose last instruction, behind a return, is a branch to the largest number of 64 bits is
finished, and reading it does not give the branch that was asked for. -/
theorem Built.finish_unreadable :
    ∃ (calls : Transcript) (assembler : Assembler) (subject : Function),
      Built calls assembler ∧ assembler.finish (.dynamic []) = .ok subject ∧
      ∀ listing, Transcribes (AssemblyCall.Asks subject.constants calls.lastBinding) calls listing →
        ¬ subject.code.Lists 0 listing subject.code.size := by
  have hconstant : Built [(0, .emit (.constant 0))] { code := #[0xC0] } :=
    .call .start trivial rfl
  have hreturn : Built [(0, .emit (.constant 0)), (1, .emit .ret)] { code := #[0xC0, 0x87] } :=
    .call hconstant trivial rfl
  have hbuilt : Built [(0, .emit (.constant 0)), (1, .emit .ret),
      (2, .emit (.branch .goto .relative 0xFFFFFFFFFFFFFFFF))]
      { code := #[0xC0, 0x87, 0xAA, 0x7B] } := .call hreturn trivial rfl
  have hdepth : Code.maxDepth #[0xC0, 0x87, 0xAA, 0x7B] 0 = .ok 1 := by decide +kernel
  refine ⟨_, _, _, hbuilt, Assembler.finish_dynamic rfl hdepth, fun listing hlisting hlists ↦ ?_⟩
  obtain ⟨now, entry, hentry, -⟩ := hlisting.exists_entry
    (List.mem_of_getLast? rfl) rfl
  have hread : Code.decode #[0xC0, 0x87, 0xAA, 0x7B] 2 = .ok (entry, 2 + entry.length) :=
    hlists.decode_of_mem hentry
  have hcarries := Code.carries_extend #[0xC0, 0x87]
    [Opcode.relativeGoto + BranchKind.goto.index, 0x7B] #[]
  have hfail : Code.decode #[0xC0, 0x87, 0xAA, 0x7B] 2 = .error (.branchOutOfRange 2 (-1)) :=
    Code.decode_relativeBranch (by decide) hcarries
  rw [hfail] at hread
  cases hread

end LispMachine
