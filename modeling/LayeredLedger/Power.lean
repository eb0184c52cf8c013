/-!
# Powers

A power of a number is what repeated multiplication gives, and the same one in every module, also
where there are powers in monoids.
-/

attribute [instance (high), default_instance (high + 1)] instPowNat
