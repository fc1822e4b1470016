import PCode.Channel.Basic
/-!
A channel in memory: scripted input, collected output.
-/

namespace PCode

structure QueueChannel where
  input : List Word
  output : Array Word
  deriving DecidableEq

namespace QueueChannel

def ofInput (input : List Word) : QueueChannel := ⟨input, #[]⟩

def pushInput (c : QueueChannel) (w : Word) : QueueChannel := { c with input := c.input ++ [w] }

def read (c : QueueChannel) : Except Error Word × QueueChannel :=
  match c.input with
  | [] => (.error (.io "input exhausted"), c)
  | w :: rest => (.ok w, { c with input := rest })

def write (w : Word) (c : QueueChannel) : Except Error Unit × QueueChannel :=
  (.ok (), { c with output := c.output.push w })

instance : Channel QueueChannel := ⟨read, write⟩

instance : LawfulChannel QueueChannel where
  ofChannel_read {c d e} h := by
    cases hi : c.input <;> simp only [Channel.read, read, hi, Prod.mk.injEq] at h
    · obtain ⟨⟨⟩, -⟩ := h
      exact .io _
    · obtain ⟨⟨⟩, -⟩ := h
  ofChannel_write h := by cases h

end QueueChannel
end PCode
