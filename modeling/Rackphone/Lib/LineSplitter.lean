import Rackphone.Lib.Transducer

/-!
# Lines as they arrive

A machine that takes a text one character at a time and gives out each line at its end: a line
feed, a carriage return, or the two together. What is left at the end of the text is a line too,
unless it is empty.
-/

namespace LineSplitter

open Transducer

structure Splitter where
  carry : List Char
  afterReturn : Bool
deriving DecidableEq

def start : Splitter := ⟨[], false⟩

def step (s : Splitter) (c : Char) : Splitter × List (List Char) :=
  if c = '\n' then
    if s.afterReturn then (⟨[], false⟩, []) else (⟨[], false⟩, [s.carry])
  else if c = '\r' then (⟨[], true⟩, [s.carry])
  else (⟨s.carry ++ [c], false⟩, [])

def close (s : Splitter) : List (List Char) := if s.carry = [] then [] else [s.carry]

theorem run_open : ∀ {line : List Char}, (∀ c ∈ line, c ≠ '\n' ∧ c ≠ '\r') →
    ∀ carry, run step ⟨carry, false⟩ line = (⟨carry ++ line, false⟩, [])
  | [], _, carry => by simp
  | c :: line, h, carry => by
    obtain ⟨hc, hline⟩ := List.forall_mem_cons.1 h
    have hstep : step ⟨carry, false⟩ c = (⟨carry ++ [c], false⟩, []) := by
      rw [step, if_neg hc.1, if_neg hc.2]
    rw [run_cons, hstep, run_open hline]
    simp

theorem run_line {line : List Char} (h : ∀ c ∈ line, c ≠ '\n' ∧ c ≠ '\r') :
    run step start (line ++ ['\n']) = (start, [line]) :=
  run_append_of_eq (run_open h []) rfl

end LineSplitter
