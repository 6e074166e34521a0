import ThCore.Machine
import ThCore.ElfParser.Auxv
import ThCore.ElfParser.UserStack
import ThCore.ElfParser.StackLayout
import ThCore.ElfParser.Info
import ThCore.Axhal.Trap
import ThCore.Axhal.Context
import ThCore.Axhal.Uspace
import ThCore.Axhal.Boot
import ThCore.HandlerTable
import ThCore.Axhal.Irq
import ThCore.FlattenObjects
import ThCore.Axhal.Time
import ThCore.CpuMask
import ThCore.CpuMask.Interleaving
import ThCore.ElfParser.AppStack
import ThCore.Main
