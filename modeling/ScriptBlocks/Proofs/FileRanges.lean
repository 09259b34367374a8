import ScriptBlocks.Proofs.Findings
import ScriptBlocks.Proofs.Ranges
import ScriptBlocks.Proofs.Text.Newlines

/-!
# Ranges in files

What a file is scanned for is its text with unified newlines, and the ranges of its scripts are
ranges of the bytes of that text.  Each of them stands for a range of the bytes of the file
(`Script.LocatedIn`), which lies further on by the number of carriage returns with a line feed
after them that come before its ends (`exists_locatedIn_of_mem_find`).
-/

namespace ScriptBlocks

open Text

/-- The number of places where a carriage return and a line feed stand in bytes. -/
def newlinePairs (bytes : List UInt8) : Nat := countPairs 0x0D 0x0A bytes

/-- The script stands in the bytes of a file from index `first` up to index `last`, right after a
`>` and right before a `</script>`.  Its own range falls short of that by the carriage returns with
a line feed after them which come before. -/
structure Script.LocatedIn (s : Script) (bytes : List UInt8) (first last : Nat) : Prop where
  first_pos : 0 < first
  first_le_last : first ≤ last
  last_le_length : last ≤ bytes.length
  preceded : bytes[first - 1]? = some 0x3E
  followed : Utf8.encode bodyEnd <+: bytes.drop last
  text_eq : TextFile.textOfBytes (bytes.extract first last) = .ok s.sourceText.toList
  start_add : s.start + newlinePairs (bytes.take first) = first
  stop_add : s.stop + newlinePairs (bytes.take last) = last

/-! ### One text -/

theorem newlinePairs_encode (s : List Char) :
    newlinePairs (Utf8.encode s) = countPairs '\r' '\n' s :=
  Utf8.countPairs_encode (a := '\r') (b := '\n') (by decide) (by decide) s

theorem newlinePairs_take_le (bytes : List UInt8) (n : Nat) :
    newlinePairs (bytes.take n) ≤ newlinePairs bytes := by
  have h := countPairs_le_append 0x0D 0x0A (bytes.take n) (bytes.drop n)
  rwa [List.take_append_drop] at h

theorem textOfBytes_encode (s : List Char) :
    TextFile.textOfBytes (Utf8.encode s) = .ok (unifyNewlines s) := by
  rw [TextFile.textOfBytes, Utf8.decode_eq_ok_iff.2 rfl]

theorem textOfBytes_eq_ok_iff {bytes : List UInt8} {text : List Char} :
    TextFile.textOfBytes bytes = .ok text ↔
      ∃ raw, bytes = Utf8.encode raw ∧ unifyNewlines raw = text := by
  constructor
  · intro h
    rw [TextFile.textOfBytes] at h
    split at h
    · next raw hraw =>
      cases h
      exact ⟨raw, Utf8.decode_eq_ok_iff.1 hraw, rfl⟩
    · cases h
  · rintro ⟨raw, rfl, rfl⟩
    exact textOfBytes_encode raw

/-- A text that is scanned with unified newlines falls apart at a block: what comes up to the
closing angle of the tag, the body, and what comes from the `</script>` on. -/
theorem Scan.LiesAt.exists_append {raw : List Char} {tag angle stop : Nat} {s : Script}
    (h : Scan.LiesAt (unifyNewlines raw) tag angle stop s) :
    ∃ before body after, raw = before ++ ['>'] ++ body ++ (bodyEnd ++ after) ∧
      unifyNewlines body = s.sourceText.toList ∧
      unifyNewlines (before ++ ['>']) = (unifyNewlines raw).take (angle + 1) ∧
      unifyNewlines (before ++ ['>'] ++ body) = (unifyNewlines raw).take stop := by
  have hcut : unifyNewlines raw =
      (unifyNewlines raw).take stop ++ (unifyNewlines raw).drop stop :=
    (List.take_append_drop _ _).symm
  -- First the `</script>` is cut off, and then, in what comes before it, the body.
  obtain ⟨upto, rest, hraw, hupto, hrest⟩ := exists_append_of_unifyNewlines hcut
  obtain ⟨more, hmore⟩ := occurs_of_find?_eq_some h.find?_stop
  obtain ⟨tagEnd, after, rfl, htagEnd, -⟩ :=
    exists_append_of_unifyNewlines (hrest.trans hmore.symm)
  have htagEnd := eq_of_unifyNewlines_eq (by decide) htagEnd
  have hcut : unifyNewlines upto =
      (unifyNewlines raw).take (angle + 1) ++ slice (unifyNewlines raw) (angle + 1) stop := by
    rw [hupto, take_append_slice h.bounds.1]
  obtain ⟨tag, body, rfl, htag, hbody⟩ := exists_append_of_unifyNewlines hcut
  have hangle : unifyNewlines tag = (unifyNewlines raw).take angle ++ ['>'] := by
    rw [htag, List.take_add_one, h.getElem?_angle]
    rfl
  obtain ⟨before, close, rfl, -, hclose⟩ := exists_append_of_unifyNewlines hangle
  have hclose := eq_of_unifyNewlines_eq (by decide) hclose
  subst htagEnd hclose
  exact ⟨before, body, after, hraw, hbody.trans h.toList_eq.symm, htag, hupto⟩

theorem Scan.LiesAt.exists_locatedIn {raw : List Char} {tag angle stop : Nat} {s : Script}
    (h : Scan.LiesAt (unifyNewlines raw) tag angle stop s) :
    ∃ first last, s.LocatedIn (Utf8.encode raw) first last := by
  obtain ⟨before, body, after, hraw, hbody, hfirst, hlast⟩ := h.exists_append
  refine ⟨Utf8.size (before ++ ['>']), Utf8.size (before ++ ['>'] ++ body), ?_⟩
  have hsize : Utf8.size (before ++ ['>']) = Utf8.size before + 1 := by
    rw [Utf8.size_append]
    rfl
  have hstart := size_unifyNewlines_add (before ++ ['>'])
  have hstop := size_unifyNewlines_add (before ++ ['>'] ++ body)
  rw [hfirst] at hstart
  rw [hlast] at hstop
  rw [hraw]
  constructor
  · omega
  · rw [Utf8.size_append _ body]
    exact Nat.le_add_right _ _
  · rw [Utf8.length_encode, Utf8.size_append _ (bodyEnd ++ after)]
    exact Nat.le_add_right _ _
  · rw [hsize, Nat.add_sub_cancel, List.append_assoc, List.append_assoc, Utf8.encode_append,
      ← Utf8.length_encode, List.getElem?_append_right (Nat.le_refl _), Nat.sub_self]
    rfl
  · rw [Utf8.drop_size_encode_append, Utf8.encode_append]
    exact List.prefix_append _ _
  · rw [Utf8.extract_size_encode_append, textOfBytes_encode, hbody]
  · rw [List.append_assoc, Utf8.take_size_encode_append, newlinePairs_encode, h.start_eq]
    exact congrArg Int.ofNat hstart
  · rw [Utf8.take_size_encode_append, newlinePairs_encode, h.stop_eq]
    exact congrArg Int.ofNat hstop

/-! ### Files -/

section

variable {fs : FileSystem} {extensions arguments : List String} {f : Finding} {s : Script}

theorem read_eq_ok_iff {p : Path} {text : List Char} : TextFile.read fs p = .ok text ↔
    ∃ raw, fs.read p = .ok (Utf8.encode raw) ∧ unifyNewlines raw = text := by
  unfold TextFile.read
  rcases fs.read p with error | bytes
  · simp
  · simp [textOfBytes_eq_ok_iff]

/-- Each script that is reported for a file stands in the bytes of the file, and its own range is
moved from there by the carriage returns with a line feed after them alone; in a file without
these it is where the script stands. -/
theorem exists_locatedIn_of_mem_find
    (hf : f ∈ (Extract.find fs extensions arguments).files) (hs : s ∈ f.scripts) :
    ∃ bytes first last, fs.read f.path = .ok bytes ∧ s.LocatedIn bytes first last ∧
      (newlinePairs bytes = 0 → s.start = first ∧ s.stop = last) := by
  obtain ⟨p, -, rfl⟩ := Extract.exists_ofPath_of_mem_readAll hf
  obtain ⟨text, hread, hs⟩ := Finding.exists_text_of_mem_scripts hs
  obtain ⟨raw, hbytes, rfl⟩ := read_eq_ok_iff.1 hread
  rw [parse_eq, String.toList_ofList] at hs
  obtain ⟨tag, -, hscript⟩ := List.mem_filterMap.1 hs
  obtain ⟨_, _, _, _, -, hlies⟩ := Scan.exists_liesAt hscript
  obtain ⟨first, last, hlocated⟩ := hlies.exists_locatedIn
  refine ⟨_, first, last, hbytes, hlocated, fun hnone => ?_⟩
  have hfirst := newlinePairs_take_le (Utf8.encode raw) first
  have hlast := newlinePairs_take_le (Utf8.encode raw) last
  have := hlocated.start_add
  have := hlocated.stop_add
  omega

end

/-- A file with a pair before its script, a pair and a lone carriage return in it, and a character
of two bytes. -/
def mixedNewlines : FileSystem where
  here := .directory [("a.mpx", .file (Utf8.encode "é\r\n<script>\r\na\rb</script>".toList))]

theorem exists_locatedIn_mixedNewlines :
    ∃ f ∈ (Extract.find mixedNewlines [".mpx"] ["."]).files, ∃ s ∈ f.scripts,
      s = ⟨"\na\nb", SourceType.mjs, 11, true⟩ ∧ ∃ bytes first last,
        mixedNewlines.read f.path = .ok bytes ∧ s.LocatedIn bytes first last ∧
          (newlinePairs bytes = 0 → s.start = first ∧ s.stop = last) := by
  have hany : ((Extract.find mixedNewlines [".mpx"] ["."]).files.any fun f =>
      f.scripts = [⟨"\na\nb", SourceType.mjs, 11, true⟩]) = true := by with_unfolding_all decide
  obtain ⟨f, hf, hscripts⟩ := List.any_eq_true.1 hany
  have hs : (⟨"\na\nb", SourceType.mjs, 11, true⟩ : Script) ∈ f.scripts := by
    rw [of_decide_eq_true hscripts]
    exact List.mem_singleton_self _
  exact ⟨f, hf, _, hs, rfl, exists_locatedIn_of_mem_find hf hs⟩

end ScriptBlocks
