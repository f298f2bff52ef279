import CallTrace.Correlation
import CallTrace.Proofs.Log.Attribution
import CallTrace.Proofs.Log.Outline

/-!
# Fixed layouts, written and read

Executions, branching decisions and the headers of remote calls have layouts of fixed size. Writing
and reading such a layout undo each other in both directions.

* What is written over the front of a buffer is read from its front again, and what lies behind the
  layout stays (`ReadsBack`). An execution has to be `Registered` for that: each of its texts has a
  number, and the number has the text.
* What is read from the bytes of a layout is written as the same bytes (`WritesBack`). Executions
  stand for their texts by numbers, and a text is always written by the number that it was first
  known by; so this holds of the executions exactly in tables without aliases
  (`writesBack_execution_iff`).
-/

namespace CallTrace.Log.Layout

variable {α : Type} {size : Nat} {table : StringTable} {e : Execution} {raw : RawExecution}
  {write : α → Bytes → Except Fault Unit × Bytes} {read : Bytes → Except Fault α}

/-! ## Both directions -/

/-- What is written over the front of a buffer is read from its front again, and what lies behind
the layout stays as it was. A buffer that is too small is refused and left alone. -/
structure ReadsBack (size : Nat) (write : α → Bytes → Except Fault Unit × Bytes)
    (read : Bytes → Except Fault α) (IsWritable : α → Prop) : Prop where
  too_small : ∀ a buffer, buffer.length < size →
    write a buffer = (.error (.overflow size buffer.length), buffer)
  read_back : ∀ a buffer, IsWritable a → size ≤ buffer.length → ∃ written,
    write a buffer = (.ok (), written) ∧ written.length = buffer.length
      ∧ written.drop size = buffer.drop size ∧ read written = .ok a

/-- What is read from the bytes of a layout is written over the front of a buffer as the same
bytes. -/
def WritesBack (size : Nat) (write : α → Bytes → Except Fault Unit × Bytes)
    (read : Bytes → Except Fault α) : Prop :=
  ∀ bytes a, bytes.length = size → read bytes = .ok a →
    ∀ buffer : Bytes, size ≤ buffer.length →
      write a buffer = (.ok (), bytes ++ buffer.drop size)

theorem write_of_lt {fields : List (Except Fault Bytes)} {buffer : Bytes}
    (h : buffer.length < size) :
    Layout.write size fields buffer = (.error (.overflow size buffer.length), buffer) :=
  if_pos h

/-- It is enough to know the bytes that a value is written as, and that they are read as the value
whatever comes behind them. -/
theorem ReadsBack.of_layout {IsWritable : α → Prop} (layout : α → Bytes)
    (hlength : ∀ a, (layout a).length = size)
    (too_small : ∀ a buffer, buffer.length < size →
      write a buffer = (.error (.overflow size buffer.length), buffer))
    (hwrite : ∀ a buffer, IsWritable a → size ≤ buffer.length →
      write a buffer = (.ok (), layout a ++ buffer.drop size))
    (hread : ∀ a rest, IsWritable a → read (layout a ++ rest) = .ok a) :
    ReadsBack size write read IsWritable where
  too_small := too_small
  read_back a buffer ha hfits := by
    refine ⟨layout a ++ buffer.drop size, hwrite a buffer ha hfits, ?_, ?_, hread a _ ha⟩
    · rw [List.length_append, hlength, List.length_drop]
      omega
    · exact List.drop_left' (hlength a)

/-! ## Executions -/

/-- The four texts of the execution have numbers, which have these texts. -/
def Registered (table : StringTable) (e : Execution) : Prop :=
  ∀ text ∈ Encoder.texts e, ∃ id, table.idOf? text = some id ∧ table.text? id = some text

theorem Registered.exists_id (h : Registered table e) :
    ∀ text ∈ Encoder.texts e, ∃ id, table.idOf? text = some id := by
  intro text htext
  obtain ⟨id, hid, -⟩ := h text htext
  exact ⟨id, hid⟩

theorem registered_of_numbers {texts : List String} (h : table.Numbers texts)
    (hknown : Encoder.texts e ⊆ texts) : Registered table e := by
  intro text htext
  obtain ⟨id, hid⟩ := h.mem_iff.mp (hknown htext)
  exact ⟨id, hid, h.text?_of_idOf? hid⟩

/-- The layout of an execution stands for the execution. -/
theorem Registered.resolves (h : Registered table e) :
    Resolves table.text? (numbered table e) e := by
  have hback : ∀ text ∈ Encoder.texts e,
      table.text? ((table.idOf? text).getD 0) = some text := by
    intro text htext
    obtain ⟨id, hid, hback⟩ := h text htext
    rwa [hid, Option.getD_some]
  simp only [Encoder.texts, List.mem_cons, List.not_mem_nil, or_false, forall_eq_or_imp,
    forall_eq] at hback
  obtain ⟨hcomponent, hoperation, hsession, hhost⟩ := hback
  exact ⟨hcomponent, hoperation, hsession, rfl, rfl, rfl, hhost, rfl, rfl⟩

theorem readsBack_execution (table : StringTable) :
    ReadsBack executionSize (writeExecution table) (readExecution table) (Registered table) := by
  refine .of_layout (fun e => (numbered table e).bytes) (fun e => (numbered table e).length_bytes)
    (fun e buffer hlt => write_of_lt hlt) ?_ ?_
  · intro e buffer he hfits
    exact writeExecution_numbered he.exists_id hfits
  · intro e rest he
    rw [readExecution_append]
    exact resolve_eq_ok_iff.mpr he.resolves

/-- Without aliases there is one layout for an execution. -/
theorem eq_numbered_of_resolves (hagrees : table.Agrees) (hunaliased : table.IsUnaliased)
    (h : Resolves table.text? raw e) : raw = numbered table e := by
  have hid : ∀ {id text}, table.text? id = some text → (table.idOf? text).getD 0 = id := by
    intro id text hid
    rw [hagrees.idOf?_of_text? hunaliased hid, Option.getD_some]
  obtain ⟨component, operation, session, traceId, tin, tout, host, eoi, ess⟩ := raw
  simp only [numbered, RawExecution.mk.injEq]
  exact ⟨(hid h.component).symm, (hid h.operation).symm, (hid h.session).symm, h.traceId.symm,
    h.tin.symm, h.tout.symm, (hid h.host).symm, h.eoi.symm, h.ess.symm⟩

theorem exists_id_of_resolves (hagrees : table.Agrees) (h : Resolves table.text? raw e) :
    ∀ text ∈ Encoder.texts e, ∃ id, table.idOf? text = some id := by
  intro text htext
  simp only [Encoder.texts, List.mem_cons, List.not_mem_nil, or_false] at htext
  refine Option.isSome_iff_exists.mp ?_
  rcases htext with rfl | rfl | rfl | rfl
  · exact hagrees.isSome_idOf? _ _ h.component
  · exact hagrees.isSome_idOf? _ _ h.operation
  · exact hagrees.isSome_idOf? _ _ h.session
  · exact hagrees.isSome_idOf? _ _ h.host

/-- **Executions are written back exactly in tables without aliases.** -/
theorem writesBack_execution_iff (hagrees : table.Agrees) :
    WritesBack executionSize (writeExecution table) (readExecution table)
      ↔ table.IsUnaliased := by
  constructor
  · -- the same execution, once with the one number of the text everywhere and once with the other
    intro hback i j text hi hj
    let layout (id : Int32) : RawExecution := ⟨id, id, id, 0, 0, 0, id, 0, 0⟩
    let execution : Execution := ⟨text, text, text, 0, 0, 0, text, 0, 0⟩
    have hwrite : ∀ id, table.text? id = some text →
        writeExecution table execution (List.replicate executionSize 0)
          = (.ok (), (layout id).bytes) := by
      intro id hid
      have hread : readExecution table (layout id).bytes = .ok execution := by
        rw [readExecution_bytes]
        exact resolve_eq_ok_iff.mpr ⟨hid, hid, hid, rfl, rfl, rfl, hid, rfl, rfl⟩
      have hwritten := hback _ _ (layout id).length_bytes hread
        (List.replicate executionSize 0) (Nat.le_of_eq List.length_replicate.symm)
      simpa using hwritten
    have hsame : (layout i).bytes ++ [] = (layout j).bytes ++ [] := by
      have htwice := (hwrite i hi).symm.trans (hwrite j hj)
      simpa using htwice
    exact congrArg RawExecution.component (RawExecution.bytes_append_inj hsame).1
  · intro hunaliased bytes e hlength hread buffer hfits
    obtain ⟨raw, rfl⟩ := exists_rawExecution hlength
    rw [readExecution_bytes] at hread
    have hresolves := resolve_eq_ok_iff.mp hread
    rw [writeExecution_numbered (exists_id_of_resolves hagrees hresolves) hfits,
      ← eq_numbered_of_resolves hagrees hunaliased hresolves]

/-! ## Branching decisions -/

theorem readsBack_branching :
    ReadsBack branchingSize writeBranching readBranching fun _ => True :=
  .of_layout branchingBytes length_branchingBytes (fun _ _ hlt => write_of_lt hlt)
    (fun b _ _ hfits => writeBranching_of_fits b hfits) fun b rest _ => readBranching_append b rest

theorem writesBack_branching : WritesBack branchingSize writeBranching readBranching := by
  intro bytes b hlength hread buffer hfits
  obtain ⟨c, rfl⟩ := exists_branchingBytes hlength
  rw [readBranching_bytes] at hread
  rw [← Except.ok.inj hread]
  exact writeBranching_of_fits c hfits

end CallTrace.Log.Layout

namespace CallTrace

/-! ## Headers -/

namespace Header

@[simp] theorem length_toBytes (header : Header) : header.toBytes.length = size := rfl

/-- A header is read from the front of some bytes, whatever comes behind it. -/
theorem ofBytes_append (header : Header) (rest : Bytes) :
    ofBytes (header.toBytes ++ rest) = .ok header := by
  simp [ofBytes, toBytes, List.append_assoc]

/-- Bytes that are long enough have a header in front. -/
theorem exists_toBytes {bytes : Bytes} (h : size ≤ bytes.length) :
    ∃ header : Header, bytes = header.toBytes ++ bytes.drop size := by
  have hfront : (bytes.take size).length = 8 + 8 := by simp [size] at h ⊢; omega
  obtain ⟨traceId, _, heq, h1⟩ := Bytes.exists_cons_ofInt64 hfront
  obtain ⟨eoi, _, rfl, h2⟩ := Bytes.exists_cons_ofInt32 (n := 4) h1
  obtain ⟨ess, rfl⟩ := Bytes.exists_ofInt32 h2
  refine ⟨⟨traceId, eoi, ess⟩, ?_⟩
  show bytes = Bytes.ofInt64 traceId ++ Bytes.ofInt32 eoi ++ Bytes.ofInt32 ess ++ bytes.drop size
  rw [List.append_assoc (Bytes.ofInt64 traceId), ← heq, List.take_append_drop]

end Header

open Log Log.Layout

/-- **Fixed layouts round-trip in both directions.**

An execution whose texts are registered is written over the front of every buffer that has room for
it, and read from there again; what lies behind the layout stays, and a buffer without room is left
alone. Where numbers and texts agree, all layouts of executions that can be read are written back
byte for byte exactly if no text has two numbers. Branching decisions always are, in both
directions, and each layout of theirs can be read. A header is read from the bytes that it is
written as, whatever comes behind them, and any bytes that are long enough have in front the bytes
of the header that is read from them. -/
theorem fixed_layouts_round_trip :
    (∀ table, ReadsBack executionSize (writeExecution table) (readExecution table)
        (Registered table))
      ∧ (∀ table : StringTable, table.Agrees →
          (WritesBack executionSize (writeExecution table) (readExecution table)
            ↔ table.IsUnaliased))
      ∧ ReadsBack branchingSize writeBranching readBranching (fun _ => True)
      ∧ WritesBack branchingSize writeBranching readBranching
      ∧ (∀ bytes : Bytes, bytes.length = branchingSize → ∃ b, readBranching bytes = .ok b)
      ∧ (∀ (header : Header) (rest : Bytes), header.toBytes.length = Header.size
          ∧ Header.ofBytes (header.toBytes ++ rest) = .ok header)
      ∧ ∀ bytes : Bytes, Header.size ≤ bytes.length →
          ∃ header, Header.ofBytes bytes = .ok header
            ∧ header.toBytes = bytes.take Header.size := by
  refine ⟨readsBack_execution, fun table => writesBack_execution_iff, readsBack_branching,
    writesBack_branching, ?_, ?_, ?_⟩
  · intro bytes hlength
    obtain ⟨b, rfl⟩ := exists_branchingBytes hlength
    exact ⟨b, readBranching_bytes b⟩
  · intro header rest
    exact ⟨header.length_toBytes, header.ofBytes_append rest⟩
  · intro bytes hfits
    obtain ⟨header, hbytes⟩ := Header.exists_toBytes hfits
    refine ⟨header, ?_, ?_⟩
    · rw [hbytes, Header.ofBytes_append]
    · rw [hbytes, List.take_left' header.length_toBytes]

/-- Three texts are numbered. An execution with these texts has a layout, which is written into an
empty buffer of 48 bytes, read as the execution, and written over the front of a longer buffer. -/
theorem fixed_layouts_round_trip_numbered :
    let table := (((({} : StringTable).intern "shop").2.intern "pay()").2.intern "h1").2
    let e : Execution := ⟨"shop", "pay()", "h1", 1, 0, 10, "h1", 0, 0⟩
    Registered table e ∧ table.Agrees ∧ table.IsUnaliased
      ∧ ∃ layout : Bytes, layout.length = 48
          ∧ writeExecution table e (List.replicate 48 0) = (.ok (), layout)
          ∧ readExecution table layout = .ok e
          ∧ writeExecution table e (List.replicate 50 0xEE) = (.ok (), layout ++ [0xEE, 0xEE]) := by
  intro table e
  have hnumbers : table.Numbers ["shop", "pay()", "h1"] :=
    ((StringTable.numbers_empty.intern (by decide) (by decide)).intern (by decide)
      (by decide)).intern (by decide) (by decide)
  have hregistered : Registered table e := registered_of_numbers hnumbers (by decide)
  obtain ⟨hreads, hwrites, -⟩ := fixed_layouts_round_trip
  obtain ⟨layout, hwrite, hlength, -, hread⟩ :=
    (hreads table).read_back e (List.replicate 48 0) hregistered (by decide)
  rw [List.length_replicate] at hlength
  have hback := (hwrites table hnumbers.agrees).mpr hnumbers.isUnaliased layout e hlength hread
  exact ⟨hregistered, hnumbers.agrees, hnumbers.isUnaliased, layout, hlength, hwrite, hread,
    hback (List.replicate 50 0xEE) (by decide)⟩

end CallTrace
