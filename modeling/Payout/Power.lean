/-!
# Powers

A power of numbers is the one of the core library, wherever it stands. Other libraries bring a
second power, which agrees with it but is another term.
-/

attribute [instance (1100), default_instance 20000] instPowNat
