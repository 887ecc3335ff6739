import DjLink.Library.ForLoop

/-!
The time line of `example-song-structure`: a mark for every 16th beat of a track
and the number of the beat for every fourth mark. The beats are counted in 16
bits. A track that ends among the last 16 of them keeps the loop from ending,
since the counter goes from the last multiple of 16 back to 0.
-/

namespace DjLink

open ForLoop

namespace SongStructure

structure Mark where
  beat : UInt16
  labelled : Bool
  deriving DecidableEq

/-- The marks of `drawPhraseTimeline`. -/
def drawPhraseTimeline (fuel : ℕ) (totalBeats : UInt16) : Option (List Mark) :=
  if totalBeats = 0 then some []
  else
    (loop (fun beat => decide (beat ≤ totalBeats)) (fun beat => beat + 16) fuel 0).map fun beats =>
      beats.map fun beat => ⟨beat, beat % 64 == 0⟩

theorem iterate_toNat (i : ℕ) :
    ((fun beat : UInt16 => beat + 16)^[i] 0).toNat = 16 * i % 65536 := by
  induction i with
  | zero => rfl
  | succ i ih =>
      rw [Function.iterate_succ_apply', UInt16.toNat_add, ih]
      have hstep : (16 : UInt16).toNat = 16 := rfl
      omega

theorem iterate_eq (i : ℕ) :
    (fun beat : UInt16 => beat + 16)^[i] 0 = UInt16.ofNat (16 * i) := by
  refine UInt16.toNat_inj.mp ?_
  rw [iterate_toNat, UInt16.toNat_ofNat']

/-- The loop over the beats is left behind the last of them. -/
theorem loop_beats {totalBeats : UInt16} (h : totalBeats.toNat < 65520) :
    loop (fun beat => decide (beat ≤ totalBeats)) (fun beat : UInt16 => beat + 16)
        (totalBeats.toNat / 16 + 2) 0 =
      some ((List.range (totalBeats.toNat / 16 + 1)).map fun i => UInt16.ofNat (16 * i)) := by
  rw [loop_eq_some (fun i hi => ?_) ?_]
  · exact congrArg some (List.map_congr_left fun i _ => iterate_eq i)
  · rw [decide_eq_false_iff_not, UInt16.le_iff_toNat_le, iterate_toNat]
    omega
  · rw [decide_eq_true_eq, UInt16.le_iff_toNat_le, iterate_toNat]
    omega

/-- No multiple of 16 is behind these beats. -/
theorem loop_beats_eq_none {totalBeats : UInt16} (h : 65520 ≤ totalBeats.toNat) (fuel : ℕ) :
    loop (fun beat => decide (beat ≤ totalBeats)) (fun beat : UInt16 => beat + 16) fuel 0 = none :=
  loop_eq_none (fun i => by
    rw [decide_eq_true_eq, UInt16.le_iff_toNat_le, iterate_toNat]
    omega) fuel

theorem ofNat_mod_beq (i : ℕ) : (UInt16.ofNat (16 * i) % 64 == 0) = (i % 4 == 0) := by
  have h64 : (64 : UInt16).toNat = 64 := rfl
  have h0 : (0 : UInt16).toNat = 0 := rfl
  rw [Bool.eq_iff_iff, beq_iff_eq, beq_iff_eq, ← UInt16.toNat_inj, UInt16.toNat_mod,
    UInt16.toNat_ofNat', h64, h0]
  omega

/-- **The time line.** The marks of a track are drawn exactly if it has less than
65520 beats, and then there is one for every 16th beat up to the last, with a
number at every fourth of them. -/
theorem marks_iff (totalBeats : UInt16) (marks : List Mark) :
    (∃ fuel, drawPhraseTimeline fuel totalBeats = some marks) ↔
      totalBeats.toNat < 65520 ∧ marks =
        if totalBeats = 0 then []
        else (List.range (totalBeats.toNat / 16 + 1)).map fun i =>
          ⟨UInt16.ofNat (16 * i), i % 4 == 0⟩ := by
  by_cases hzero : totalBeats = 0
  · subst hzero
    simp [drawPhraseTimeline, eq_comm]
  · simp only [drawPhraseTimeline, hzero, if_false]
    by_cases hend : totalBeats.toNat < 65520
    · have hmarks : ((List.range (totalBeats.toNat / 16 + 1)).map fun i =>
          UInt16.ofNat (16 * i)).map (fun beat => (⟨beat, beat % 64 == 0⟩ : Mark)) =
          (List.range (totalBeats.toNat / 16 + 1)).map fun i =>
            ⟨UInt16.ofNat (16 * i), i % 4 == 0⟩ := by
        rw [List.map_map]
        refine List.map_congr_left fun i _ => ?_
        rw [Function.comp_apply, ofNat_mod_beq]
      constructor
      · rintro ⟨fuel, hfuel⟩
        obtain ⟨beats, hbeats, rfl⟩ := Option.map_eq_some_iff.mp hfuel
        rw [loop_unique hbeats (loop_beats hend)]
        exact ⟨hend, hmarks⟩
      · rintro ⟨-, rfl⟩
        exact ⟨_, by rw [loop_beats hend, Option.map_some, hmarks]⟩
    · constructor
      · rintro ⟨fuel, hfuel⟩
        rw [loop_beats_eq_none (by omega)] at hfuel
        cases hfuel
      · exact fun h => absurd h.1 hend

end SongStructure

end DjLink
